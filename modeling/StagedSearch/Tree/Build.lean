/-
# Building a tree

A search is built in three steps. The leaves of the directive become the first stages, in
order. Decision variables that no leaf claims are then completed by up to three stages,
one per kind. At last the cost is wired: the bound is the cost itself when minimizing, and
a new variable that is constrained to its negation when maximizing. Each stage is the only
child of the one before it, and the last one sets the incumbent.

Without any stage there is nothing to decide, and the state of the store is reported as
the one solution.
-/

import StagedSearch.Directive.Resolve
import StagedSearch.Search.Context

namespace StagedSearch

/-- What is built: a tree, or nothing because nothing has to be decided. -/
inductive BuildOutcome where
  | tree (tree : SearchTree)
  | trivial
deriving DecidableEq, Inhabited

structure Stage where
  search : CompiledSearch
  role : NodeRole
deriving DecidableEq, Inhabited

/-- The outcome of building, with the store and the context as building leaves them. -/
structure Built (ρ : Type) where
  outcome : Except SolveError BuildOutcome
  store : Store
  context : Context ρ

namespace SearchSpec

def claimed (spec : SearchSpec) : List VarId :=
  match spec.directive with
  | some directive => directive.claimed
  | none => []

def leaves (spec : SearchSpec) : List (VarKind × VarSearch) :=
  match spec.directive with
  | some directive => directive.leaves
  | none => []

/-- Each variable of a list with its kind, or the first one that does not exist. -/
def kindsOf (s : Store) : List VarId → Except SolveError (List (VarId × VarKind))
  | [] => .ok []
  | var :: rest => do
    let v ← SolveError.ofStore (s.declaration var)
    let later ← kindsOf s rest
    return (var, v.kind) :: later

def ofKind (kind : VarKind) (vars : List (VarId × VarKind)) : List VarId :=
  (vars.filter (·.2 = kind)).map Prod.fst

/-- The decision variables that no hint claims, by kind, in the order of declaration. -/
def completion (spec : SearchSpec) (names : Names) (s : Store) :
    Except SolveError (List (VarKind × List VarId)) := do
  let claimed := spec.claimed
  let vars ← kindsOf s (names.decisions.filter (!claimed.contains ·))
  return [.int, .bool, .set].map fun kind => (kind, ofKind kind vars)

/-- Compiles leaves in order, and drops those without variables. -/
def compileAll (s : Store) (role : NodeRole) : List (VarKind × VarSearch) → Seeded (List Stage)
  | [] => pure []
  | (kind, search) :: rest => do
    let first ← CompiledSearch.compile (.leaf kind) search s
    let later ← compileAll s role rest
    return (first.map (⟨·, role⟩)).toList ++ later

/-- The stages of a search: those of the hints, and then those that complete them. -/
def stages (spec : SearchSpec) (names : Names) (s : Store) : Seeded (List Stage) := do
  let explicit ← compileAll s .explicit spec.leaves
  let completion ←
    match spec.completion names s with
    | .error e => throw e
    | .ok sets => compileAll s .completion (sets.map fun (kind, vars) => (kind, .plain vars))
  return explicit ++ completion

/-- The objective of a maximization. The bound is a new variable that ranges over the
negated values of the cost. -/
def wireMaximum (cost : VarId) (s : Store) : Except SolveError (Objective × Store) := do
  let domain ← SolveError.ofStore (s.intDomain cost)
  let v ← SolveError.ofStore (s.declaration cost)
  match domain.min?, domain.max? with
  | some min, some max =>
    match Signed64.checked (-max), Signed64.checked (-min) with
    | some low, some high =>
      let (bound, s) := s.addInt ("-" ++ v.name) low high
      return (⟨cost, bound, none⟩, s.addConstraint (.negation bound cost))
    | _, _ => throw (.malformedCost (.notNegatable v.name))
  | _, _ => throw (.malformedCost .emptyDomain)

/-- The objective of a search, if it optimizes, and the store that it needs. -/
def wireCost (spec : SearchSpec) (s : Store) : Except SolveError (Option Objective × Store) :=
  match spec.goal, spec.cost with
  | .satisfy, _ => .ok (none, s)
  | _, none => .error (.malformedCost .noVariable)
  | .minimize, some cost => .ok (some ⟨cost, cost, none⟩, s)
  | .maximize, some cost => (wireMaximum cost s).map fun (objective, s) => (some objective, s)

end SearchSpec

namespace SearchTree

/-- Adds stages one below the other. All carry the bound, and the last one optimizes. -/
def pushStages (bound : Option VarId) : List Stage → Option NodeId → SearchTree → SearchTree
  | [], _, t => t
  | stage :: rest, parent, t =>
    let node :=
      { SearchNode.ofSearch stage.search stage.role with
        bound
        optimizing := bound.isSome && rest.isEmpty }
    let (id, t) := t.push node parent
    pushStages bound rest (some id) t

def ofStages (bound : Option VarId) (stages : List Stage) : SearchTree :=
  pushStages bound stages none empty

end SearchTree

namespace SearchSpec

variable {ρ : Type}

/-- Reports the store as it is, because nothing has to be decided. -/
def acceptTrivially [Reporter ρ] (s : Store) (context : Context ρ) : Built ρ :=
  let (_, context) := (context.note .nothingToDecide).accept s
  ⟨.ok .trivial, s, context⟩

/-- Chains stages into a tree after wiring the cost. -/
def chain (spec : SearchSpec) (stages : List Stage) (s : Store) (context : Context ρ) :
    Built ρ :=
  match spec.wireCost s with
  | .error e => ⟨.error e, s, context⟩
  | .ok (objective, s) =>
    let tree := SearchTree.ofStages (objective.map Objective.bound) stages
    let context := { context with objective := objective.or context.objective }
    let context := context.note (.treeBuilt tree.size tree.vars.length tree.isComplete)
    ⟨.ok (.tree tree), s, context⟩

def build [Reporter ρ] (spec : SearchSpec) (names : Names) (s : Store) (context : Context ρ) :
    Built ρ :=
  match spec.stages names s context.seeds with
  | .error e seeds => ⟨.error e, s, { context with seeds }⟩
  | .ok stages seeds =>
    let context := { context with seeds }
    if stages.isEmpty then acceptTrivially s context else spec.chain stages s context

end SearchSpec

end StagedSearch
