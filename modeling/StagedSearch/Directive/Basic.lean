/-
# Search directives

A directive says which variables are decided, in which order, and how much of the search
space is explored. A leaf decides variables of one kind; a sequence runs its parts one
after another, each starting when the one before has decided all its variables.
-/

import StagedSearch.Branching.ValueOrder
import StagedSearch.Branching.VariableOrder

namespace StagedSearch

/-- How many of the candidates of each decision are visited. -/
inductive Exploration where
  /-- all of them -/
  | complete
  /-- limited discrepancy search: on each path at most `limit` candidates other than the
  first one -/
  | lds (limit : Nat)
  /-- credit search: `credit` units are shared out among the candidates, down to `depth` -/
  | credit (credit : Nat) (depth : Nat)
deriving DecidableEq, Inhabited

namespace Exploration

def isComplete : Exploration → Bool
  | complete => true
  | _ => false

def render : Exploration → String
  | complete => "complete"
  | lds limit => s!"lds({limit})"
  | credit units depth => s!"credit({units}, bbs({depth}))"

end Exploration

structure VarSearch where
  vars : List VarId
  /-- Without an order the variables are decided by ascending domain size. -/
  variableOrder : Option VariableOrder
  /-- Without a preference the smallest value comes first. -/
  preference : Option ValuePreference
  exploration : Exploration
deriving DecidableEq, Inhabited

/-- A leaf without any preference of its own. -/
def VarSearch.plain (vars : List VarId) : VarSearch := ⟨vars, none, none, .complete⟩

/-- The tag of a directive: a leaf for one kind of variables, or a sequence. -/
inductive DirectiveKind where
  | leaf (kind : VarKind)
  | seq
deriving DecidableEq, Inhabited

namespace DirectiveKind

def ofName? : String → Option DirectiveKind
  | "int_search" => some (leaf .int)
  | "bool_search" => some (leaf .bool)
  | "set_search" => some (leaf .set)
  | "seq_search" => some seq
  | _ => none

def name : DirectiveKind → String
  | leaf .int => "int_search"
  | leaf .bool => "bool_search"
  | leaf .set => "set_search"
  | seq => "seq_search"

end DirectiveKind

inductive SearchDirective where
  | leaf (kind : VarKind) (search : VarSearch)
  | seq (children : List SearchDirective)
deriving Inhabited

namespace SearchDirective

def kind : SearchDirective → DirectiveKind
  | leaf kind _ => .leaf kind
  | seq _ => .seq

mutual

/-- The leaves from left to right. -/
def leaves : SearchDirective → List (VarKind × VarSearch)
  | leaf kind search => [(kind, search)]
  | seq children => leavesOfAll children

def leavesOfAll : List SearchDirective → List (VarKind × VarSearch)
  | [] => []
  | child :: children => child.leaves ++ leavesOfAll children

end

mutual

/-- The variables of all leaves, from left to right and as often as they are named. -/
def claimed : SearchDirective → List VarId
  | leaf _ search => search.vars
  | seq children => claimedByAll children

def claimedByAll : List SearchDirective → List VarId
  | [] => []
  | child :: children => child.claimed ++ claimedByAll children

end

mutual

/-- What a directive claims is what its leaves name. -/
theorem claimed_eq_flatMap : ∀ d : SearchDirective, d.claimed = d.leaves.flatMap (·.2.vars)
  | leaf _ _ => by simp only [claimed, leaves, List.flatMap_cons, List.flatMap_nil, List.append_nil]
  | seq children => claimedByAll_eq_flatMap children

theorem claimedByAll_eq_flatMap : ∀ children : List SearchDirective,
    claimedByAll children = (leavesOfAll children).flatMap (·.2.vars)
  | [] => rfl
  | child :: children => by
    rw [claimedByAll, leavesOfAll, List.flatMap_append, claimed_eq_flatMap child,
      claimedByAll_eq_flatMap children]

end

/-- Whether every leaf visits all candidates. -/
def isComplete (d : SearchDirective) : Bool := d.leaves.all (·.2.exploration.isComplete)

end SearchDirective

inductive Goal where
  | satisfy
  | minimize
  | maximize
deriving DecidableEq, Inhabited

namespace Goal

def isOptimization : Goal → Bool
  | satisfy => false
  | minimize => true
  | maximize => true

def name : Goal → String
  | satisfy => "Satisfy"
  | minimize => "Minimize"
  | maximize => "Maximize"

end Goal

structure SearchSpec where
  goal : Goal
  /-- The variable whose value is optimized. -/
  cost : Option VarId
  directive : Option SearchDirective
deriving Inhabited

end StagedSearch
