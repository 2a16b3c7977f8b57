/-
# Histories of integer domains

An integer domain is made from nothing, from two bounds or from a list of values
(`IntDomain.Origin`), and then cut down by removals and restrictions (`IntDomain.Cut`).

The operations compute neighbours of values: the value behind an interval, which a further value
may extend, and the values on both sides of a removed one. A history can also be carried out step
by step in the signed range, where a neighbour that lies outside of it comes to nothing (`none`).
Listed values are then put in ascending order first and joined into intervals from the least one
on.
-/

import StagedSearch.Domain.IntDomain
import StagedSearch.Domain.SetDomain

namespace StagedSearch

namespace Interval

/-- What remains of the interval around a value that it holds. A neighbour of the value is
computed only where the interval goes on. -/
def without? (i : Interval) (value : Int) : Option (List Interval) :=
  if i.min = value then
    if i.max = value then some []
    else do
      let above ← Signed64.checked (value + 1)
      return [⟨above, i.max⟩]
  else do
    let below ← Signed64.checked (value - 1)
    if i.max = value then return [⟨i.min, below⟩]
    else
      let above ← Signed64.checked (value + 1)
      return [⟨i.min, below⟩, ⟨above, i.max⟩]

end Interval

namespace IntDomain

def removeFrom? (value : Int) : List Interval → Option (List Interval)
  | [] => some []
  | i :: rest =>
    if i.contains value then do
      let parts ← i.without? value
      return parts ++ rest
    else do
      let later ← removeFrom? value rest
      return i :: later

def remove? (d : IntDomain) (value : Int) : Option (IntDomain × Bool) := do
  let intervals ← removeFrom? value d.intervals
  return (⟨intervals⟩, d.contains value)

/-- Joins ascending values to an interval before them. A value right behind the interval extends
it, and any other one begins the next interval. -/
def joinRuns? (last : Interval) : List Int → Option (List Interval)
  | [] => some [last]
  | value :: rest => do
    let next ← Signed64.checked (last.max + 1)
    if next = value then joinRuns? ⟨last.min, value⟩ rest
    else
      let later ← joinRuns? ⟨value, value⟩ rest
      return last :: later

/-- The intervals of ascending values. -/
def runs? : List Int → Option (List Interval)
  | [] => some []
  | value :: rest => joinRuns? ⟨value, value⟩ rest

def ofValues? (values : List Int) : Option IntDomain := do
  let intervals ← runs? (Elements.ofList values)
  return ⟨intervals⟩

/-- What an integer domain is made from. -/
inductive Origin where
  | empty
  | interval (min max : Int)
  | ofValues (values : List Int)
deriving DecidableEq, Inhabited

namespace Origin

def InRange : Origin → Prop
  | empty => True
  | interval min max => Signed64.InRange min ∧ Signed64.InRange max
  | ofValues values => ∀ value ∈ values, Signed64.InRange value

def domain : Origin → IntDomain
  | empty => IntDomain.empty
  | interval min max => IntDomain.interval min max
  | ofValues values => IntDomain.ofValues values

/-- The domain, made by steps in the signed range. -/
def domain? : Origin → Option IntDomain
  | empty => some IntDomain.empty
  | interval min max => some (IntDomain.interval min max)
  | ofValues values => ofValues? values

end Origin

/-- What cuts an integer domain down. -/
inductive Cut where
  | remove (value : Int)
  | restrict (min max : Int)
deriving DecidableEq, Inhabited

namespace Cut

/-- The domain after the cut, and whether the cut is reported as a change. -/
def run (d : IntDomain) : Cut → IntDomain × Bool
  | remove value => d.remove value
  | restrict min max => d.restrict min max

/-- The cut, made by steps in the signed range. A restriction only compares bounds. -/
def run? (d : IntDomain) : Cut → Option (IntDomain × Bool)
  | remove value => d.remove? value
  | restrict min max => some (d.restrict min max)

end Cut

def cutAll (d : IntDomain) : List Cut → IntDomain
  | [] => d
  | cut :: rest => cutAll (cut.run d).1 rest

/-- The domain after several cuts, made by steps in the signed range. -/
def cutAll? (d : IntDomain) : List Cut → Option IntDomain
  | [] => some d
  | cut :: rest => do
    let (d, _) ← cut.run? d
    cutAll? d rest

end IntDomain

end StagedSearch
