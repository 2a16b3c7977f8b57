/-
# Building in place

Building as it acts on a store and a context that are there: one step after another, each of
which changes them at once or fails. What was changed before a step fails stays changed. So the
order of the steps decides what a failure leaves behind. `SearchSpec.build` has no word on that:
there the store is changed all at once, after everything has succeeded.

Every request for a change may be refused here, too: the negated cost is declared with bounds
that the store checks, and the constraint is imposed on variables that the store looks up.
-/

import StagedSearch.Tree.Build

namespace StagedSearch

/-- What building acts on. -/
structure Site (ρ : Type) where
  store : Store
  context : Context ρ

/-- A step of building. Where it fails, it leaves what it has changed. -/
abbrev Building (ρ : Type) := EStateM SolveError (Site ρ)

/-- What building comes to, as a step. -/
def Built.result {ρ : Type} (built : Built ρ) : EStateM.Result SolveError (Site ρ) BuildOutcome :=
  match built.outcome with
  | .ok outcome => .ok outcome ⟨built.store, built.context⟩
  | .error e => .error e ⟨built.store, built.context⟩

namespace Building

variable {ρ α : Type}

def ask (question : Store → Except SolveError α) : Building ρ α := fun site =>
  match question site.store with
  | .ok a => .ok a site
  | .error e => .error e site

def draw (step : Store → Seeded α) : Building ρ α := fun site =>
  match step site.store site.context.seeds with
  | .ok a seeds => .ok a { site with context := { site.context with seeds } }
  | .error e seeds => .error e { site with context := { site.context with seeds } }

/-- Asks the store for a change. What it refuses is not made. -/
def change (request : Store → Except StoreError (α × Store)) : Building ρ α := fun site =>
  match request site.store with
  | .ok (a, store) => .ok a { site with store }
  | .error e => .error (.store e) site

/-- Changes the context, which is never refused. -/
def amend (f : Store → Context ρ → Context ρ) : Building ρ Unit := fun site =>
  .ok () { site with context := f site.store site.context }

def compileAll (role : NodeRole) : List (VarKind × VarSearch) → Building ρ (List Stage)
  | [] => pure []
  | (kind, search) :: rest => do
    let first ← draw (CompiledSearch.compile (.leaf kind) search)
    let later ← compileAll role rest
    return (first.map (⟨·, role⟩)).toList ++ later

def stages (spec : SearchSpec) (names : Names) : Building ρ (List Stage) := do
  let explicit ← compileAll .explicit spec.leaves
  let sets ← ask (spec.completion names)
  let completion ← compileAll .completion (sets.map fun (kind, vars) => (kind, .plain vars))
  return explicit ++ completion

/-- The objective of a maximization. The negated cost is declared, and then tied to the cost. -/
def wireMaximum (cost : VarId) : Building ρ Objective := do
  let domain ← ask fun s => SolveError.ofStore (s.intDomain cost)
  match domain.min?, domain.max? with
  | some min, some max =>
    let v ← ask fun s => SolveError.ofStore (s.declaration cost)
    match Signed64.checked (-max), Signed64.checked (-min) with
    | some low, some high =>
      let bound ← change fun s => s.declareInt ("-" ++ v.name) low high
      change fun s => (s.impose (.negation bound cost)).map ((), ·)
      return ⟨cost, bound, none⟩
    | _, _ => throw (.malformedCost (.notNegatable v.name))
  | _, _ => throw (.malformedCost .emptyDomain)

/-- Sets the objective of a search, if it optimizes, and says what is minimized. -/
def wireCost (spec : SearchSpec) : Building ρ (Option VarId) :=
  match spec.goal, spec.cost with
  | .satisfy, _ => return none
  | _, none => throw (.malformedCost .noVariable)
  | .minimize, some cost => do
    amend fun _ context => { context with objective := some ⟨cost, cost, none⟩ }
    return some cost
  | .maximize, some cost => do
    let objective ← wireMaximum cost
    amend fun _ context => { context with objective := some objective }
    return some objective.bound

def tree [Reporter ρ] (spec : SearchSpec) (names : Names) : Building ρ BuildOutcome := do
  let stages ← stages spec names
  if stages.isEmpty then
    amend fun _ context => context.note .nothingToDecide
    amend fun s context => (context.accept s).2
    return .trivial
  else
    let bound ← wireCost spec
    let tree := SearchTree.ofStages bound stages
    amend fun _ context => context.note (.treeBuilt tree.size tree.vars.length tree.isComplete)
    return .tree tree

end Building

end StagedSearch
