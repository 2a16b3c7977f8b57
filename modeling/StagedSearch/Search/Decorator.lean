/-
# Exploration decorators

A decorator decides which candidates of a decision are visited; it changes nothing else.
What it needs to know about the way to the decision travels down that way as a value, so
going back restores it. Each stage of a search starts afresh.
-/

import StagedSearch.Directive.Basic

namespace StagedSearch

/-- A restriction of the candidates that are visited. -/
inductive Decorator where
  /-- at most `limit` candidates other than the first one on each path -/
  | lds (limit : Nat)
  /-- `credit` units are shared out; a candidate with one unit, or at `depth`, is explored
  exhaustively -/
  | credit (credit : Nat) (depth : Nat)
deriving DecidableEq, Inhabited

def Exploration.decorators : Exploration → List Decorator
  | complete => []
  | lds limit => [.lds limit]
  | credit units depth => [.credit units depth]

/-- The credit on the way to a decision. -/
inductive CreditState where
  /-- No credit has been shared out yet. -/
  | fresh
  | active (credit : Nat) (depth : Nat)
  /-- Everything below is explored. -/
  | exhaustive
deriving DecidableEq, Inhabited

/-- What decorators know about the way from the start of a stage to a decision. -/
structure PathState where
  discrepancies : Nat
  credit : CreditState
deriving DecidableEq, Inhabited

def PathState.start : PathState := ⟨0, .fresh⟩

namespace Decorator

/-- The share of candidate `index` when `available` units go to `count` candidates: equal
parts, and the first candidates take the units left over. -/
def creditShare (available index count : Nat) : Nat :=
  available / count + if index < available % count then 1 else 0

/-- The state below a candidate that takes a share of the credit. Nothing is visited
without credit, and one unit explores everything below. -/
def spend (share depth : Nat) : Option CreditState :=
  match share with
  | 0 => none
  | 1 => some .exhaustive
  | share => some (.active share (depth + 1))

/-- The credit state below a candidate, for a search with a given credit and depth. -/
def creditBelow? (units limit : Nat) (state : CreditState) (index count : Nat) :
    Option CreditState :=
  let share (available depth : Nat) : Option CreditState :=
    if limit ≤ depth then some .exhaustive
    else spend (creditShare available index (max 1 count)) depth
  match state with
  | .exhaustive => some .exhaustive
  | .fresh => share units 0
  | .active available depth => share available depth

/-- The path below candidate `index` of `count`, unless the candidate is left out. -/
def step? (decorator : Decorator) (path : PathState) (index count : Nat) : Option PathState :=
  match decorator with
  | lds limit =>
    let discrepancies := path.discrepancies + if 0 < index then 1 else 0
    if index = 0 ∨ discrepancies ≤ limit then some { path with discrepancies } else none
  | credit units limit =>
    (creditBelow? units limit path.credit index count).map fun credit => { path with credit }

/-- The path below a candidate after every decorator in turn, unless one leaves it out. -/
def stepAll? (decorators : List Decorator) (path : PathState) (index count : Nat) :
    Option PathState :=
  decorators.foldlM (fun path decorator => decorator.step? path index count) path

end Decorator

end StagedSearch
