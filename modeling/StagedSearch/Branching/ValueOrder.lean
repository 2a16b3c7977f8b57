/-
# Value orders

A value order lists the candidates of a variable, the best one first. It is also a state:
a random order goes on with its generator from one decision to the next.
-/

import StagedSearch.Branching.Choice
import StagedSearch.Random.Shuffle

namespace StagedSearch

/-- How values are preferred, by name. -/
inductive ValuePreference where
  | min
  | max
  | middle
  | random
deriving DecidableEq, Inhabited

namespace ValuePreference

/-- Two of the orders have a second name. -/
def ofName? : String → Option ValuePreference
  | "indomain_min" => some min
  | "indomain" => some min
  | "indomain_max" => some max
  | "indomain_middle" => some middle
  | "indomain_median" => some middle
  | "indomain_random" => some random
  | _ => none

def name : ValuePreference → String
  | min => "indomain_min"
  | max => "indomain_max"
  | middle => "indomain_middle"
  | random => "indomain_random"

end ValuePreference

inductive ValueOrder where
  /-- the values of an integer domain, ascending -/
  | ascending
  /-- the values of an integer domain, descending -/
  | descending
  /-- the values of an integer domain, by distance from the midpoint of its bounds -/
  | middleOut
  /-- the values of an integer domain in random order -/
  | random (generator : Generator)
  /-- the smallest undecided element of a set, first in and then out -/
  | smallestElement
  /-- the largest undecided element of a set, first in and then out -/
  | largestElement
deriving DecidableEq, Inhabited

namespace ValueOrder

/-- The values by distance from `target`, the lower one of two at the same distance first. -/
def sortByDistance (target : Int) (values : List Int) : List Int :=
  values.mergeSort (IntDomain.nearer target)

def elementChoices (var : VarId) : Option Int → Branching
  | none => Branching.none
  | some e => Branching.ofList [.takeIn var e, .leaveOut var e]

/-- The candidates of a variable, and the order for the next decision. A variable whose
domain does not suit the order has none. -/
def candidates (order : ValueOrder) (s : Store) (var : VarId) : Branching × ValueOrder :=
  match order, s.domains.get? var with
  | ascending, some (.int d) => (⟨d.size, .ascending var d.intervals⟩, order)
  | descending, some (.int d) => (⟨d.size, .descending var d.intervals.reverse⟩, order)
  | middleOut, some (.int d) =>
    match d.min?, d.max? with
    | some low, some high =>
      let values := sortByDistance (Signed64.midpoint low high) d.values
      (Branching.ofList (values.map (.assign var)), order)
    | _, _ => (Branching.none, order)
  | random generator, some (.int d) =>
    let (values, generator) := shuffle d.values generator
    (Branching.ofList (values.map (.assign var)), random generator)
  | smallestElement, some (.set d) => (elementChoices var d.undecided.head?, order)
  | largestElement, some (.set d) => (elementChoices var d.undecided.getLast?, order)
  | _, _ => (Branching.none, order)

end ValueOrder

end StagedSearch
