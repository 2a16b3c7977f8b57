/-
# Variable orders

A variable order picks the next undecided variable of a list. Orders other than the order
of the list compare a key, and of several best variables the first one is picked.
-/

import StagedSearch.Store.Basic

namespace StagedSearch

inductive VariableOrder where
  /-- the first of the list -/
  | inputOrder
  /-- the smallest domain -/
  | firstFail
  /-- the largest domain -/
  | antiFirstFail
  /-- the smallest least value, or the smallest undecided element -/
  | smallest
  /-- the largest greatest value, or the largest undecided element -/
  | largest
deriving DecidableEq, Inhabited

namespace VariableOrder

def ofName? : String → Option VariableOrder
  | "input_order" => some inputOrder
  | "first_fail" => some firstFail
  | "anti_first_fail" => some antiFirstFail
  | "smallest" => some smallest
  | "largest" => some largest
  | _ => none

def name : VariableOrder → String
  | inputOrder => "input_order"
  | firstFail => "first_fail"
  | antiFirstFail => "anti_first_fail"
  | smallest => "smallest"
  | largest => "largest"

/-- The domain size that decides between variables. -/
def domainSize (s : Store) (var : VarId) : Nat :=
  match s.domains.get? var with
  | some d => d.size
  | none => Unsigned64.greatest

/-- The least value or undecided element; without one, the greatest value of the range. -/
def lowest (s : Store) (var : VarId) : Int :=
  match s.domains.get? var with
  | some (.int d) => d.min?.getD Signed64.greatest
  | some (.set d) => d.undecided.head?.getD Signed64.greatest
  | none => Signed64.greatest

/-- The greatest value or undecided element; without one, the least value of the range. -/
def highest (s : Store) (var : VarId) : Int :=
  match s.domains.get? var with
  | some (.int d) => d.max?.getD Signed64.least
  | some (.set d) => d.undecided.getLast?.getD Signed64.least
  | none => Signed64.least

/-- The first element that no later one beats. -/
def firstBest {α : Type} (better : α → α → Bool) : List α → Option α
  | [] => none
  | a :: rest => some (rest.foldl (fun best b => if better b best then b else best) a)

/-- Whether a variable strictly precedes another one. Places in the list do not count. -/
def better (order : VariableOrder) (s : Store) (x y : VarId) : Bool :=
  match order with
  | inputOrder => false
  | firstFail => decide (domainSize s x < domainSize s y)
  | antiFirstFail => decide (domainSize s y < domainSize s x)
  | smallest => decide (lowest s x < lowest s y)
  | largest => decide (highest s y < highest s x)

/-- The next variable of a list to decide, if one is undecided. -/
def select? (order : VariableOrder) (s : Store) (vars : List VarId) : Option VarId :=
  firstBest (order.better s) (vars.filter (!s.isSingleton ·))

end VariableOrder

end StagedSearch
