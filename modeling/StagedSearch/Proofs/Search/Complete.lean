/-
# Runs of trees that were built

Whatever a tree that was built leaves out, its run hands over leaves as described. If every node
explores all candidates, the time is not limited, and the listener never asks to stop, then the
run leaves nothing out: every settled table below the store is covered. This is all that is said
here; what it means for the solutions depends on the goal.
-/

import StagedSearch.Proofs.Search.Run
import StagedSearch.Proofs.Tree.Wiring

namespace StagedSearch

namespace SearchState

variable {ρ : Type} [Reporter ρ] {t : SearchTree} {bound : Option VarId} {st : SearchState ρ}
  {leaves : List Store}

/-- What a run that leaves nothing out comes to. -/
structure Completes (t : SearchTree) (bound : Option VarId) (st : SearchState ρ)
    (leaves : List Store) : Prop where
  explored : Explored bound (t.varsFrom 0) st (t.run st).2 leaves
  covers : st.store.Covers (t.varsFrom 0) bound (t.run st).2.context.incumbent? leaves
  result : (t.run st).1 = ⟨!leaves.isEmpty, false, false⟩

/-- A run that nothing disturbs leaves nothing out, if the tree does not. -/
theorem Ran.completes (ran : Ran t bound st leaves) (whole : t.isComplete = true)
    (undisturbed : Undisturbed st) (unlimited : st.context.timeLimit = none)
    (nonempty : 0 < t.size) : Completes t bound st leaves := by
  obtain ⟨explored, covers, found⟩ := ran
  obtain ⟨inTime, goesOn⟩ := proceeds_of_undisturbed undisturbed unlimited nonempty
  refine ⟨explored, covers whole inTime goesOn, ?_⟩
  cases result : (t.run st).1 with
  | mk reported late ended =>
    rw [result] at found inTime goesOn
    simp only at found inTime goesOn
    rw [found, inTime, goesOn]

end SearchState

abbrev Built.start {ρ : Type} (built : Built ρ) (t : SearchTree) : SearchState ρ :=
  ⟨Progress.ofTree t, built.store, built.context⟩

/-- Building a search comes to a tree, and nothing that was asked for makes its run stop early
or leave candidates out. -/
structure SearchSpec.Thorough {ρ : Type} [Reporter ρ] (spec : SearchSpec) (names : Names)
    (s : Store) (context : Context ρ) (t : SearchTree) : Prop where
  outcome : (spec.build names s context).outcome = .ok (.tree t)
  complete : ∀ node ∈ t.nodes, node.search.exploration = .complete
  unlimited : context.timeLimit = none
  endless : context.listener.Endless

namespace SearchSpec

variable {ρ : Type} [Reporter ρ] {spec : SearchSpec} {names : Names} {s : Store}
  {context : Context ρ} {t : SearchTree}

/-- The run of a tree that was built comes to leaves as described, whatever it leaves out. -/
theorem exists_ran_of_build (formed : s.Formed)
    (outcome : (spec.build names s context).outcome = .ok (.tree t)) :
    ∃ objective leaves,
      spec.wireCost s = .ok (objective, (spec.build names s context).store) ∧
      (spec.build names s context).Ready t objective context ∧
      SearchState.Ran t (objective.map Objective.bound)
        ((spec.build names s context).start t) leaves := by
  obtain ⟨objective, wired, ready⟩ := exists_ready_of_build formed outcome
  have fresh : ∀ o, objective = some o → o.incumbent = none :=
    (wired_of_wireCost formed wired).fresh
  have improves : (spec.build names s context).store.domains.Improves
      (objective.map Objective.bound) (spec.build names s context).context.incumbent? := by
    rintro var best bound incumbent
    obtain ⟨o, rfl, -⟩ := Option.map_eq_some_iff.1 bound
    unfold Context.incumbent? at incumbent
    rw [ready.objective, Option.some_or, Option.bind_some, fresh o rfl] at incumbent
    cases incumbent
  obtain ⟨leaves, ran⟩ :=
    SearchState.exists_ran ready.searchable ready.running improves ready.nonempty
  exact ⟨objective, leaves, wired, ready, ran⟩

/-- The run of a thorough search is complete. -/
theorem exists_completes_of_build (formed : s.Formed)
    (thorough : spec.Thorough names s context t) :
    ∃ objective leaves,
      spec.wireCost s = .ok (objective, (spec.build names s context).store) ∧
      (spec.build names s context).Ready t objective context ∧
      SearchState.Completes t (objective.map Objective.bound)
        ((spec.build names s context).start t) leaves := by
  obtain ⟨objective, leaves, wired, ready, ran⟩ := exists_ran_of_build formed thorough.outcome
  have undisturbed : SearchState.Undisturbed ((spec.build names s context).start t) := by
    refine ⟨SearchTree.deadlines_ofTree t, ?_⟩
    show (spec.build names s context).context.listener.Endless
    rw [ready.listener]
    exact thorough.endless
  have whole : t.isComplete = true := SearchTree.isComplete_iff.2 thorough.complete
  exact ⟨objective, leaves, wired, ready, ran.completes whole undisturbed
    (ready.timeLimit.trans thorough.unlimited) ready.nonempty⟩

end SearchSpec

end StagedSearch
