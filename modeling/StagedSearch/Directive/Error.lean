/-
# Errors of a solve

Why a search cannot be set up, or why its output broke off. A failed propagation is not
among them: search meets it all the time and goes on.
-/

import StagedSearch.Directive.Basic

namespace StagedSearch

inductive HintFault where
  | noArray
  | notASearch
  | tooFewArguments
  | notAVariable
  | notAVariableList
deriving DecidableEq, Inhabited

/-- What is wrong, after the text of the term it is about. -/
def HintFault.message : HintFault → String
  | .noArray => "expects an array of search annotations"
  | .notASearch => "is not a search annotation"
  | .tooFewArguments => "expects variables, variable selection and value selection"
  | .notAVariable => "is not a variable"
  | .notAVariableList => "is not a variable list"

inductive CostFault where
  /-- The expression stands for no variable. -/
  | unresolved (expression : String)
  | setVariable (expression : String)
  /-- The place of an element is below the range of numbers, and computing it breaks off. -/
  | overflow
  /-- The keyword of an optimization comes without an expression. -/
  | missing (keyword : String)
  /-- A resolved optimization has no cost variable. -/
  | noVariable
  | emptyDomain
  /-- Some value of the variable has no negative inside the range. -/
  | notNegatable (name : String)
deriving DecidableEq, Inhabited

def CostFault.message : CostFault → String
  | .unresolved expression => expression
  | .setVariable expression => s!"{expression} is a set variable"
  | .overflow => "attempt to subtract with overflow"
  | .missing keyword => s!"{keyword} without cost"
  | .noVariable => "optimization goal without cost"
  | .emptyDomain => "empty cost domain"
  | .notNegatable name => s!"{name} cannot be negated"

/-- Which of its two orders a leaf names wrongly. -/
inductive HeuristicRole where
  | variableSelection
  | valueSelection
deriving DecidableEq, Inhabited

def HeuristicRole.name : HeuristicRole → String
  | .variableSelection => "variable selection"
  | .valueSelection => "value selection"

/-- The text of a failure of the output. -/
structure OutputFault where
  text : String
deriving DecidableEq, Inhabited

/-- Why a solve ends without a result. -/
inductive SolveError where
  | unsupportedSearchType (name : String)
  | unsupportedExploration (shown : String)
  | unsupportedHeuristic (role : HeuristicRole) (shown : String)
  | unsupportedSolveKind (keyword : String)
  | malformedCost (fault : CostFault)
  | malformedHint (shown : String) (fault : HintFault)
  | unknownName (name : String)
  | kindMismatch (name : String) (directive : DirectiveKind) (expected actual : VarKind)
  | store (error : StoreError)
  | output (fault : OutputFault)
deriving DecidableEq, Inhabited

def SolveError.message : SolveError → String
  | .unsupportedSearchType name => s!"not recognized search type \"{name}\""
  | .unsupportedExploration shown => s!"not recognized exploration type \"{shown}\""
  | .unsupportedHeuristic role shown => s!"not recognized {role.name} heuristic \"{shown}\""
  | .unsupportedSolveKind keyword => s!"not recognized solve kind \"{keyword}\""
  | .malformedCost fault => s!"wrong cost expression: {fault.message}"
  | .malformedHint shown fault => s!"malformed search annotation: {shown} {fault.message}"
  | .unknownName name => s!"unknown variable or array \"{name}\""
  | .kindMismatch name directive expected actual =>
    s!"variable \"{name}\" is {actual.render} but {directive.name} expects {expected.render}"
  | .store error => error.message
  | .output fault => s!"output error: {fault.text}"

/-- A request to the store, as part of setting up a search. -/
def SolveError.ofStore {α : Type} : Except StoreError α → Except SolveError α
  | .ok a => .ok a
  | .error e => .error (.store e)

end StagedSearch
