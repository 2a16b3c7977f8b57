/-
# Compiled searches

Compiling a leaf checks its variables against the store and settles both of its orders. A
leaf without variables compiles to nothing. A random value order takes its seed from the
generator of the run, which is why compiling passes a generator on.
-/

import StagedSearch.Directive.Error

namespace StagedSearch

/-- A leaf whose orders are settled. -/
structure CompiledSearch where
  kind : VarKind
  vars : List VarId
  variableOrder : VariableOrder
  preference : ValuePreference
  exploration : Exploration
  /-- The value order as it is before the first decision. -/
  valueOrder : ValueOrder
deriving DecidableEq, Inhabited

/-- A step of setting up a search that may draw seeds. Seeds stay drawn when it fails. -/
abbrev Seeded := EStateM SolveError Generator

namespace CompiledSearch

/-- Whether a leaf for one kind of variables takes a variable of some kind. Booleans are
also integers. -/
def takes (leaf : VarKind) (kind : VarKind) : Bool :=
  match leaf with
  | .int => kind == .int || kind == .bool
  | .bool => kind == .bool
  | .set => kind == .set

/-- Checks the variables of a leaf in order. A sequence has no variables of its own. -/
def checkVariables (kind : DirectiveKind) (s : Store) : List VarId → Except SolveError Unit
  | [] => .ok ()
  | var :: rest => do
    let v ← SolveError.ofStore (s.declaration var)
    match kind with
    | .seq => throw (.unsupportedSearchType kind.name)
    | .leaf leaf =>
      if takes leaf v.kind then checkVariables kind s rest
      else throw (.kindMismatch v.name kind leaf v.kind)

def settleValueOrder (kind : VarKind) (preference : ValuePreference) : Seeded ValueOrder :=
  match kind, preference with
  | .set, .min => return .smallestElement
  | .set, .max => return .largestElement
  | .set, other => throw (.unsupportedHeuristic .valueSelection other.name)
  | _, .min => return .ascending
  | _, .max => return .descending
  | _, .middle => return .middleOut
  | _, .random => do
    let (seed, generator) := (← get).nextNumber
    set generator
    return .random (Generator.ofSeed seed)

/-- The variables in the order in which they are decided, and how the next one is picked.
Without a variable order they are sorted by domain size; equal sizes keep their order. -/
def settleVariables (search : VarSearch) (s : Store) : List VarId × VariableOrder :=
  match search.variableOrder with
  | some order => (search.vars, order)
  | none =>
    (search.vars.mergeSort fun x y =>
      decide (VariableOrder.domainSize s x ≤ VariableOrder.domainSize s y), .inputOrder)

def compile (kind : DirectiveKind) (search : VarSearch) (s : Store) :
    Seeded (Option CompiledSearch) := do
  match checkVariables kind s search.vars, kind with
  | .error e, _ => throw e
  | .ok (), .seq => throw (.unsupportedSearchType kind.name)
  | .ok (), .leaf leaf =>
    if search.vars.isEmpty then return none
    let (vars, variableOrder) := settleVariables search s
    let preference := search.preference.getD .min
    let valueOrder ← settleValueOrder leaf preference
    return some ⟨leaf, vars, variableOrder, preference, search.exploration, valueOrder⟩

/-- The compiled leaf as a call, with the names of its variables. -/
def describe (c : CompiledSearch) (s : Store) : String :=
  let names := c.vars.map fun var =>
    match s.declaration? var with
    | some v => v.name
    | none => "?"
  (DirectiveKind.leaf c.kind).name ++ "([" ++ ", ".intercalate names ++ "], "
    ++ c.variableOrder.name ++ ", " ++ c.preference.name ++ ", " ++ c.exploration.render ++ ")"

end CompiledSearch

end StagedSearch
