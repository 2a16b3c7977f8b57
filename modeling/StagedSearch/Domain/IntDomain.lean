/-
# Integer domains

A finite set of integers is held as a list of closed intervals. The operations keep the
list canonical: the intervals are non-empty, ascend strictly, and leave at least one
missing value between neighbours, so equal sets have equal lists. A domain may become
empty; which operations of the search tolerate that is decided by their callers.
-/

import StagedSearch.Number.Bounded
import StagedSearch.Number.Total

namespace StagedSearch

/-- The integers from `min` to `max`, both included. -/
structure Interval where
  min : Int
  max : Int
deriving DecidableEq, Inhabited

namespace Interval

def contains (i : Interval) (value : Int) : Bool :=
  decide (i.min ≤ value) && decide (value ≤ i.max)

/-- The exact number of values. -/
def count (i : Interval) : Nat := (i.max - i.min + 1).toNat

/-- The number of values as it is reported. -/
def size (i : Interval) : Nat := Unsigned64.saturate i.count

def smallest (i : Interval) (number : Nat) : List Int :=
  (List.range (Nat.min number i.count)).map fun (offset : Nat) => i.min + offset

def largest (i : Interval) (number : Nat) : List Int :=
  (List.range (Nat.min number i.count)).map fun (offset : Nat) => i.max - offset

def values (i : Interval) : List Int := i.smallest i.count

def nearest (i : Interval) (target : Int) : Int := Max.max i.min (Min.min i.max target)

/-- What remains of the interval around a removed value. -/
def without (i : Interval) (value : Int) : List Interval :=
  (if i.min < value then [⟨i.min, value - 1⟩] else []) ++
    (if value < i.max then [⟨value + 1, i.max⟩] else [])

/-- The common part with `min..max`, if there is one. -/
def clip? (i : Interval) (min max : Int) : Option Interval :=
  let low := Max.max i.min min
  let high := Min.min i.max max
  if low ≤ high then some ⟨low, high⟩ else none

/-- A single value is written alone, a longer interval by its two ends. -/
def render (i : Interval) : String :=
  if i.min = i.max then toString i.min else s!"{i.min}..{i.max}"

end Interval

/-- A finite set of integers. -/
structure IntDomain where
  intervals : List Interval
deriving DecidableEq, Inhabited

namespace IntDomain

def empty : IntDomain := ⟨[]⟩

/-- The values `min..max`; there are none when the bounds are reversed. -/
def interval (min max : Int) : IntDomain :=
  ⟨if min ≤ max then [⟨min, max⟩] else []⟩

/-- Adds one value to a canonical list, joining the intervals that it connects. -/
def insertInto (value : Int) : List Interval → List Interval
  | [] => [⟨value, value⟩]
  | i :: rest =>
    if value + 1 < i.min then ⟨value, value⟩ :: i :: rest
    else if value + 1 = i.min then ⟨value, i.max⟩ :: rest
    else if value ≤ i.max then i :: rest
    else if value = i.max + 1 then
      match rest with
      | [] => [⟨i.min, value⟩]
      | next :: later =>
        if next.min = value + 1 then ⟨i.min, next.max⟩ :: later
        else ⟨i.min, value⟩ :: next :: later
    else i :: insertInto value rest

def insert (d : IntDomain) (value : Int) : IntDomain := ⟨insertInto value d.intervals⟩

/-- The domain of the listed values, in any order and with any repetition. -/
def ofValues (values : List Int) : IntDomain := values.foldr (fun v d => d.insert v) empty

def isEmpty (d : IntDomain) : Bool := d.intervals.isEmpty

def min? (d : IntDomain) : Option Int := d.intervals.head?.map Interval.min

def max? (d : IntDomain) : Option Int := d.intervals.getLast?.map Interval.max

/-- The exact number of values. -/
def count (d : IntDomain) : Nat := totalSize Interval.count d.intervals

/-- The number of values as it is reported. Canonical intervals leave gaps, so only the
whole 64-bit range reaches the limit, and it does so in a single interval. -/
def size (d : IntDomain) : Nat := totalSize Interval.size d.intervals

def value? (d : IntDomain) : Option Int :=
  match d.intervals with
  | [i] => if i.min = i.max then some i.min else none
  | _ => none

def isSingleton (d : IntDomain) : Bool := d.value?.isSome

def contains (d : IntDomain) (value : Int) : Bool := d.intervals.any (·.contains value)

instance : Membership Int IntDomain where
  mem d value := d.contains value = true

instance (d : IntDomain) (value : Int) : Decidable (value ∈ d) :=
  inferInstanceAs (Decidable (d.contains value = true))

def values (d : IntDomain) : List Int := d.intervals.flatMap Interval.values

/-- Collects the least values interval by interval, without listing the others. -/
def smallestOf : List Interval → Nat → List Int
  | [], _ => []
  | i :: rest, number => i.smallest number ++ smallestOf rest (number - i.count)

/-- Collects the greatest values of intervals that are given from the last to the first. -/
def largestOf : List Interval → Nat → List Int
  | [], _ => []
  | i :: rest, number => i.largest number ++ largestOf rest (number - i.count)

def smallest (d : IntDomain) (number : Nat) : List Int := smallestOf d.intervals number

def largest (d : IntDomain) (number : Nat) : List Int := largestOf d.intervals.reverse number

/-- Whether `first` is a better middle value than `second`: nearer to the target, or as
near and smaller. -/
def nearer (target first second : Int) : Bool :=
  let d₁ := (first - target).natAbs
  let d₂ := (second - target).natAbs
  decide (d₁ < d₂) || (decide (d₁ = d₂) && decide (first ≤ second))

/-- The value nearest to the midpoint of the bounds, the lower one of two. Each interval
offers its own nearest value, and the best offer wins. -/
def middle? (d : IntDomain) : Option Int := do
  let target := Signed64.midpoint (← d.min?) (← d.max?)
  match d.intervals.map (·.nearest target) with
  | [] => none
  | offer :: offers =>
    some (offers.foldl (fun best v => if nearer target best v then best else v) offer)

def removeFrom (value : Int) : List Interval → List Interval
  | [] => []
  | i :: rest => if i.contains value then i.without value ++ rest else i :: removeFrom value rest

/-- The domain without a value, and whether it held that value. -/
def remove (d : IntDomain) (value : Int) : IntDomain × Bool :=
  (⟨removeFrom value d.intervals⟩, d.contains value)

/-- The common part with `min..max`, and whether it is smaller than the domain. -/
def restrict (d : IntDomain) (min max : Int) : IntDomain × Bool :=
  let narrowed : IntDomain := ⟨d.intervals.filterMap (·.clip? min max)⟩
  (narrowed, narrowed != d)

/-- One interval is written bare; several, or none, are listed in braces. -/
def render (d : IntDomain) : String :=
  match d.intervals with
  | [i] => i.render
  | many => "\x7b" ++ ", ".intercalate (many.map Interval.render) ++ "\x7d"

end IntDomain

end StagedSearch
