/-
# The stores in which tasks begin

Much of what a search does is settled by the store in which a task begins, whatever the listener,
the clock, the incumbent, and the candidates that are left out. A family of conditions on that
store is carried (`SearchTree.Carried`) if it passes from a node to its child, from a frame to
the candidates that it lists, past a candidate, and below it. Then it holds wherever a step of
the search is taken (`Course.stands`), and a statement about the stores of all steps needs no
induction of its own.
-/

import StagedSearch.Proofs.Branching.Offers
import StagedSearch.Proofs.Search.Course
import StagedSearch.Proofs.Search.Ways

namespace StagedSearch

namespace SearchState

variable {ρ : Type} {st st' : SearchState ρ}

/-- The candidates of a frame are about the variable that was picked, and they are offered by the
store in which they are listed. -/
theorem offers_of_listed {id : NodeId} {var : VarId} {f : Counters → Counters}
    {branching : Branching} (listed : (st.count id f).branch id var = (branching, st'))
    (undecided : st.store.isSingleton var = false) :
    ∀ choice ∈ branching.candidates.toList, choice.var = var ∧ st.store.domains.Offers choice := by
  intro choice member
  unfold SearchState.branch at listed
  split at listed
  · obtain ⟨rfl, -⟩ := Prod.mk.inj listed
    exact absurd member ValueOrder.not_mem_none
  · obtain ⟨rfl, -⟩ := Prod.mk.inj listed
    exact ⟨ValueOrder.about_candidates member, ValueOrder.offers_of_candidates undecided member⟩

end SearchState

namespace SearchTree

/-- What is asked of the store in which a task begins passes on to whatever the search does
next. -/
structure Carried (t : SearchTree) (ready : Store → SearchTask → Prop) : Prop where
  descended : ∀ (s : Store) (id child : NodeId) (depth : Nat) (path : PathState)
    (node : SearchNode), t.node? id = some node → node.children.head? = some child →
    (∀ var ∈ node.vars, s.isSingleton var = true) → ready s (.label id depth path) →
    ready s (.label child 0 .start)
  branched : ∀ (s : Store) (id : NodeId) (depth : Nat) (path : PathState) (node : SearchNode)
    (var : VarId) (size : Nat) (candidates : Candidates), t.node? id = some node →
    var ∈ node.vars → s.isSingleton var = false →
    (∀ choice ∈ candidates.toList, choice.var = var ∧ s.domains.Offers choice) →
    ready s (.label id depth path) → ready s (.trials id depth path size 0 candidates)
  passed : ∀ (s : Store) (id : NodeId) (depth : Nat) (path : PathState) (size index : Nat)
    (candidates rest : Candidates) (choice : Choice), candidates.next? = some (choice, rest) →
    ready s (.trials id depth path size index candidates) →
    ready s (.trials id depth path size (index + 1) rest)
  entered : ∀ (s u : Store) (id : NodeId) (depth : Nat) (path path' : PathState)
    (size index : Nat) (candidates rest : Candidates) (choice : Choice),
    candidates.next? = some (choice, rest) → s.Formed → s.Descends u → u.domains.Obeys choice →
    ready s (.trials id depth path size index candidates) → ready u (.label id (depth + 1) path')

end SearchTree

/-- A step is taken where its task is ready: at a candidate that is next, or at a node without
children where everything is decided. -/
def SearchStep.Stands {ρ : Type} (t : SearchTree) (ready : Store → SearchTask → Prop) :
    SearchStep ρ → Prop
  | look trial st | decide trial st => ∃ candidates rest,
    candidates.next? = some (trial.choice, rest) ∧
      ready st.store
        (.trials trial.id trial.depth trial.path trial.size trial.index candidates)
  | accept id st => ∃ node depth path, t.node? id = some node ∧ node.children.head? = none ∧
    (∀ var ∈ node.vars, st.store.isSingleton var = true) ∧ ready st.store (.label id depth path)

namespace SearchTree

variable {ρ : Type} [Reporter ρ] {t : SearchTree} {frames : Nat} {task : SearchTask}
  {st : SearchState ρ} {steps : List (SearchStep ρ)} {outcome : Flow × SearchState ρ}
  {ready : Store → SearchTask → Prop}

/-- Every step of a task is taken where its task is ready, in a store that is well formed, if
the task is ready when it begins. -/
theorem Course.stands (carried : t.Carried ready) (course : t.Course frames task st steps outcome)
    (formed : st.store.Formed) (start : ready st.store task) :
    ∀ step ∈ steps, step.Stands t ready ∧ step.state.store.Formed := by
  induction course with
  | spent | missing | emptied => simp
  | solved here decided last =>
    simpa using ⟨⟨_, _, _, here, last, VariableOrder.select?_eq_none decided, start⟩, formed⟩
  | descended here decided next _ ih =>
    exact ih formed (carried.descended _ _ _ _ _ _ here next
      (VariableOrder.select?_eq_none decided) start)
  | @branched _ _ _ _ st st₁ _ _ _ _ _ _ here picked listed _ ih =>
    have same : st₁.store = st.store := (SearchState.quiet_of_listed t listed).store
    obtain ⟨member, undecided⟩ := VariableOrder.select?_eq_some picked
    refine ih (same ▸ formed) (same ▸ carried.branched _ _ _ _ _ _ _ _ here member undecided ?_
      start)
    exact SearchState.offers_of_listed listed undecided
  | late here next => simpa using ⟨⟨_, _, next, start⟩, formed⟩
  | pruned here next => simpa using ⟨⟨_, _, next, start⟩, formed⟩
  | @failed _ _ _ _ _ _ _ _ _ _ st st₁ st₂ _ _ _ _ next inTime _ fails _ ih =>
    have same : st₁.store = st.store := (SearchState.quiet_of_expired t inTime).store
    rw [← same] at formed start
    have back : st₂.store = st₁.store := (SearchState.quiet_decide formed fails t).store
    have later := ih (back ▸ formed) (back ▸ carried.passed _ _ _ _ _ _ _ _ _ next start)
    simp only [List.forall_mem_cons]
    exact ⟨⟨⟨_, _, next, same ▸ start⟩, same ▸ formed⟩, ⟨⟨_, _, next, start⟩, formed⟩, later⟩
  | @returned _ _ _ _ _ _ _ _ _ _ st st₁ st₂ st₃ _ _ _ _ _ next inTime _ enters below _ ihBelow
      ihLater =>
    have same : st₁.store = st.store := (SearchState.quiet_of_expired t inTime).store
    rw [← same] at formed start
    have entered := SearchState.entered_decide formed enters t
    have inner := ihBelow entered.descends.formed
      (carried.entered _ _ _ _ _ _ _ _ _ _ _ next formed entered.descends entered.obeys start)
    have back : st₃.popLevel.store = st₁.store :=
      (below.store_popLevel entered.descends.formed).trans entered.back
    have later := ihLater (back ▸ formed) (back ▸ carried.passed _ _ _ _ _ _ _ _ _ next start)
    simp only [List.forall_mem_cons, List.forall_mem_append]
    exact ⟨⟨⟨_, _, next, same ▸ start⟩, same ▸ formed⟩, ⟨⟨_, _, next, start⟩, formed⟩, inner,
      later⟩
  | @ended _ _ _ _ _ _ _ _ _ _ st st₁ st₂ _ _ _ _ _ next inTime _ enters _ _ ih =>
    have same : st₁.store = st.store := (SearchState.quiet_of_expired t inTime).store
    rw [← same] at formed start
    have entered := SearchState.entered_decide formed enters t
    have inner := ih entered.descends.formed
      (carried.entered _ _ _ _ _ _ _ _ _ _ _ next formed entered.descends entered.obeys start)
    simp only [List.forall_mem_cons]
    exact ⟨⟨⟨_, _, next, same ▸ start⟩, same ▸ formed⟩, ⟨⟨_, _, next, start⟩, formed⟩, inner⟩

/-- Every step of a run is taken where its task is ready, if the frame of the root is. -/
theorem Follows.stands (carried : t.Carried ready) (formed : st.store.Formed)
    (start : ∀ s, ready s (.label 0 0 .start)) (follows : t.Follows st steps) :
    ∀ step ∈ steps, step.Stands t ready ∧ step.state.store.Formed := by
  cases follows with
  | empty | inconsistent => simp
  | searched found _ course =>
    obtain rfl := eq_zero_of_root? found
    have started : (SearchState.started t st).store.Formed := formed.pushLevel.consistency
    exact course.stands carried started (start _)

end SearchTree

end StagedSearch
