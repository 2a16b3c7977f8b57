/-
# Whole runs

A run propagates inside a level of its own and hands over to the frame of the root. So what is
known of frames holds of runs. In any tree the store is put back, and the run ends early only for
a reason. In a tree that was built the leaves are as described, and the frames that the run
allows suffice for all nodes and decisions: every settled table below the store is covered, if
the run does not end early and the tree leaves no candidates out.
-/

import StagedSearch.Search.Course
import StagedSearch.Proofs.Search.Frames
import StagedSearch.Proofs.Search.Orderly
import StagedSearch.Proofs.Search.Reports
import StagedSearch.Tree.Shape

namespace StagedSearch

namespace SearchState

variable {ρ : Type} {t : SearchTree} {bound : Option VarId} {declarations : Array Variable}

theorem orders_start {p : Progress} (orders : t.Orders p) (deadline : Option Nat)
    (ids : List NodeId) : t.Orders (p.start deadline ids) := by
  unfold Progress.start
  induction ids generalizing p with
  | nil => exact orders
  | cons id rest ih => exact ih (orders_modifyNode orders id fun _ _ _ suits => suits)

theorem deadlines_start {p : Progress} (none : ∀ other, p.deadline? other = none)
    (ids : List NodeId) : ∀ other, (p.start Option.none ids).deadline? other = Option.none := by
  unfold Progress.start
  induction ids generalizing p with
  | nil => exact none
  | cons id rest ih => exact ih (deadlines_modifyNode none id fun _ _ => rfl)

/-- The bound on the nesting of frames suffices for the nodes and for what is to decide. -/
theorem frames_suffice (t : SearchTree) {s u : Store} (descends : s.Descends u)
    (formed : s.Formed) : t.size - 0 + t.toil u ≤ t.frameBound s := by
  have below := SearchTree.toil_le (t := t) descends formed
  have above : t.toil s ≤ totalSize (SearchTree.potential s) t.vars := by
    refine SearchTree.totalSize_le t.vars fun var _ => ?_
    unfold DomainTable.effort SearchTree.potential
    cases here : s.domains.get? var with
    | none => exact Nat.zero_le _
    | some d =>
      cases d with
      | int d => by_cases single : d.isSingleton = true <;> simp [single]
      | set d => exact Nat.le_refl _
  unfold SearchTree.frameBound
  omega

variable [Reporter ρ]

/-- What a run comes to, before its level is closed. -/
def searched (t : SearchTree) (st : SearchState ρ) : Flow × SearchState ρ :=
  if st.store.pushLevel.consistency.1 then
    (started t st).within 0 (t.label (t.frameBound st.store) 0 0 .start)
  else (.proceed, (started t st).setState 0 .exhausted)

theorem run_eq (nonempty : 0 < t.size) (st : SearchState ρ) :
    t.run st =
      (⟨Decidable.decide (st.context.deadline?.2.listener.count < (searched t st).2.accepted),
        Decidable.decide ((searched t st).1 = .timedOut),
        Decidable.decide ((searched t st).1 = .stop)⟩,
        (searched t st).2.popLevel) := by
  unfold SearchTree.run
  rw [SearchTree.root?_of_size_pos nonempty]
  rfl

/-- In a tree without nodes there is nothing to run. -/
theorem run_eq_of_empty (empty : t.size = 0) (st : SearchState ρ) :
    t.run st = (⟨false, false, false⟩, st) := by
  unfold SearchTree.run
  rw [SearchTree.root?_eq_none_iff.2 empty]

theorem launch_eq (nonempty : 0 < t.size) (st : SearchState ρ) :
    t.launch st =
      if st.context.DeadlineFits then .ok (t.run st) else .error .overflow := by
  unfold SearchTree.launch
  rw [SearchTree.root?_of_size_pos nonempty]
  simp

omit [Reporter ρ] in
/-- Reading the clock for the deadline changes neither the listener nor the objective. -/
theorem deadline?_context (c : Context ρ) :
    c.deadline?.2.listener = c.listener ∧ c.deadline?.2.objective = c.objective ∧
      (c.timeLimit = none → c.deadline?.1 = none) := by
  unfold Context.deadline?
  cases c.timeLimit with
  | none => exact ⟨rfl, rfl, fun _ => rfl⟩
  | some limit => exact ⟨rfl, rfl, nofun⟩

omit [Reporter ρ] in
theorem incumbent_started (t : SearchTree) (st : SearchState ρ) :
    (started t st).context.incumbent? = st.context.incumbent? := by
  obtain ⟨-, objective, -⟩ := deadline?_context st.context
  show st.context.deadline?.2.objective.bind _ = _
  rw [objective]
  rfl

omit [Reporter ρ] in
theorem running_started {st : SearchState ρ} (running : Running t bound declarations st) :
    Running t bound declarations (started t st) := by
  obtain ⟨-, objective, -⟩ := deadline?_context st.context
  refine ⟨running.declared, running.formed.pushLevel.consistency,
    orders_start running.orders _ _, fun some => ?_, ?_⟩
  · show st.context.deadline?.2.objective.isSome = true
    rw [objective]
    exact running.objective some
  · rw [incumbent_started]
    exact running.improvable

theorem undisturbed_started {st : SearchState ρ} (undisturbed : Undisturbed st)
    (unlimited : st.context.timeLimit = none) (t : SearchTree) : Undisturbed (started t st) := by
  obtain ⟨listener, -, deadline⟩ := deadline?_context st.context
  refine ⟨?_, ?_⟩
  · show ∀ other, (st.progress.start st.context.deadline?.1 t.preOrder).deadline? other = none
    rw [deadline unlimited]
    exact deadlines_start undisturbed.deadlines _
  · show st.context.deadline?.2.listener.Endless
    rw [listener]
    exact undisturbed.endless

theorem searched_of_consistent {st : SearchState ρ}
    (consistent : st.store.pushLevel.consistency.1 = true) :
    searched t st =
      (started t st).within 0 (t.label (t.frameBound st.store) 0 0 .start) := by
  unfold searched
  rw [if_pos consistent]

theorem searched_of_inconsistent {st : SearchState ρ}
    (inconsistent : st.store.pushLevel.consistency.1 = false) :
    searched t st = (.proceed, (started t st).setState 0 .exhausted) := by
  unfold searched
  rw [if_neg (by simp [inconsistent])]

omit [Reporter ρ] in
/-- Closing the level of a run takes back what propagation did at its start. -/
theorem popLevel_started {st : SearchState ρ} (formed : st.store.Formed) (t : SearchTree) :
    (started t st).store.popLevel = st.store := by
  cases run : st.store.pushLevel.domains.propagateAll st.store.pushLevel.rules with
  | mk consistent u =>
    have store : (started t st).store = { st.store.pushLevel with domains := u } :=
      congrArg (fun outcome => { st.store.pushLevel with domains := outcome.2 }) run
    rw [store]
    cases consistent with
    | true =>
      obtain ⟨narrows, -⟩ := DomainTable.narrows_of_propagateAll formed.pushLevel.canonical run
      exact formed.popLevel_of_breaks (.narrowed narrows)
    | false =>
      exact formed.popLevel_of_breaks
        (DomainTable.breaks_of_propagateAll formed.pushLevel.canonical run)

/-! ## Any tree -/

theorem orderly_searched (t : SearchTree) (st : SearchState ρ) :
    Orderly (started t st) (searched t st) := by
  unfold searched
  split
  · exact orderly_within (fun st => orderly_label t _ 0 0 .start st) _ 0
  · exact orderly_of_quiet (quiet_setState t _ 0 .exhausted)

/-- A run puts the store back, in whichever way it ends. -/
theorem store_run {st : SearchState ρ} (formed : st.store.Formed) (t : SearchTree) :
    (t.run st).2.store = st.store := by
  rcases Nat.eq_zero_or_pos t.size with empty | nonempty
  · rw [run_eq_of_empty empty]
  · rw [run_eq nonempty]
    show (searched t st).2.store.popLevel = st.store
    have formed' : (started t st).store.Formed := formed.pushLevel.consistency
    rw [(orderly_searched t st).store formed', popLevel_started formed t]

/-- A run that is stopped was stopped by its limit of solutions or by a report that failed. -/
theorem limitReached_or_fault_of_stopped {st : SearchState ρ}
    (stopped : (t.run st).1.stopped = true) :
    (t.run st).2.context.listener.limitReached = true ∨
      (t.run st).2.context.listener.fault.isSome = true := by
  rcases Nat.eq_zero_or_pos t.size with empty | nonempty
  · rw [run_eq_of_empty empty] at stopped
    cases stopped
  · rw [run_eq nonempty] at stopped ⊢
    exact (orderly_searched t st).stopped (of_decide_eq_true stopped)

/-- Without a time limit, and with a listener that never asks to stop, a run does not end early. -/
theorem proceeds_of_undisturbed {st : SearchState ρ} (undisturbed : Undisturbed st)
    (unlimited : st.context.timeLimit = none) (nonempty : 0 < t.size) :
    (t.run st).1.timedOut = false ∧ (t.run st).1.stopped = false := by
  have undisturbed' := undisturbed_started undisturbed unlimited t
  have proceeds := ((orderly_searched t st).undisturbed undisturbed').1
  rw [run_eq nonempty, proceeds]
  exact ⟨rfl, rfl⟩

/-! ## Trees that can be searched -/

omit [Reporter ρ] in
/-- If propagation at the start succeeds, the search can go on below. -/
theorem descends_started {st : SearchState ρ} (formed : st.store.Formed)
    (consistent : st.store.pushLevel.consistency.1 = true) (t : SearchTree) :
    st.store.Descends (started t st).store ∧
      (started t st).store.domains.Stable (started t st).store.rules := by
  have run : st.store.pushLevel.domains.propagateAll st.store.pushLevel.rules =
      (true, (started t st).store.domains) := Prod.ext consistent rfl
  obtain ⟨narrows, stable⟩ := DomainTable.narrows_of_propagateAll formed.pushLevel.canonical run
  exact ⟨formed.descends narrows, stable⟩

omit [Reporter ρ] in
/-- A settled table below the store is not lost by propagation at the start. -/
theorem started_of_settled {st : SearchState ρ} (formed : st.store.Formed) {p : DomainTable}
    (settled : p.Settled st.store.rules) (within : p.Within st.store.domains) (t : SearchTree) :
    st.store.pushLevel.consistency.1 = true ∧ p.Within (started t st).store.domains := by
  have pushed : p.Settled st.store.pushLevel.rules := settled
  have below : p.Below st.store.pushLevel.domains := ⟨formed.pushLevel.sound, within⟩
  obtain ⟨u, run, above⟩ := pushed.propagateAll below
  have domains : (started t st).store.domains = u := congrArg Prod.snd run
  rw [domains]
  exact ⟨congrArg Prod.fst run, above.within⟩

theorem visited_searched (searchable : t.Searchable bound declarations) {st : SearchState ρ}
    (running : Running t bound declarations st)
    (improves : st.store.domains.Improves bound st.context.incumbent?) (nonempty : 0 < t.size) :
    Visited t bound declarations (t.varsFrom 0) True st
      ((searched t st).1, (searched t st).2.popLevel) := by
  obtain ⟨listener, -, -⟩ := deadline?_context st.context
  have formed := running.formed
  have incumbent := incumbent_started t st
  have back := popLevel_started formed t
  have running₁ := running_started running
  cases consistent : st.store.pushLevel.consistency.1 with
  | true =>
    obtain ⟨descends, stable⟩ := descends_started formed consistent t
    have improves₁ : (started t st).store.domains.Improves bound
        (started t st).context.incumbent? := by
      rw [incumbent]
      exact improves.of_within descends.within
    have start := quiet_setState t (started t st) 0 .labeling
    have visited : Visited t bound declarations (t.varsFrom 0) _ (started t st)
        ((started t st).within 0 (t.label (t.frameBound st.store) 0 0 .start)) :=
      .within (visited_label searchable (t.frameBound st.store) 0 0 .start
        ((started t st).setState 0 .labeling) (running₁.of_quiet start) stable improves₁ nonempty)
    obtain ⟨leaves, explored, running', complete⟩ := visited
    rw [searched_of_consistent consistent]
    have whole := explored.popLevel descends back listener incumbent
      fun _ _ p settled within _ _ => (started_of_settled formed settled within t).2
    refine ⟨leaves, whole, running'.popLevel running whole.store, fun all _ proceeds => ?_⟩
    have covers := complete all (frames_suffice t descends formed) proceeds
    intro p settled within decided improves
    exact covers p (descends.rules.symm ▸ settled)
      (started_of_settled formed settled within t).2 decided improves
  | false =>
    rw [searched_of_inconsistent consistent]
    have finish := quiet_setState t (started t st) 0 .exhausted
    have whole : Explored bound (t.varsFrom 0) st
        ((started t st).setState 0 .exhausted).popLevel [] := .nil back listener incumbent
    refine ⟨[], whole, (running₁.of_quiet finish).popLevel running whole.store, fun _ _ _ => ?_⟩
    intro p settled within _ _
    cases consistent.symm.trans (started_of_settled formed settled within t).1

/-- What a run comes to: leaves as described, which are all that lies below the store if the run
does not end early and the tree leaves no candidates out. -/
structure Ran (t : SearchTree) (bound : Option VarId) (st : SearchState ρ)
    (leaves : List Store) : Prop where
  explored : Explored bound (t.varsFrom 0) st (t.run st).2 leaves
  covers : t.isComplete = true → (t.run st).1.timedOut = false → (t.run st).1.stopped = false →
    st.store.Covers (t.varsFrom 0) bound (t.run st).2.context.incumbent? leaves
  found : (t.run st).1.found = !leaves.isEmpty

theorem exists_ran (searchable : t.Searchable bound declarations) {st : SearchState ρ}
    (running : Running t bound declarations st)
    (improves : st.store.domains.Improves bound st.context.incumbent?) (nonempty : 0 < t.size) :
    ∃ leaves, Ran t bound st leaves := by
  obtain ⟨leaves, explored, -, complete⟩ := visited_searched searchable running improves nonempty
  have accepted : (searched t st).2.accepted = st.context.listener.count + leaves.length := by
    have after := congrArg Listener.count explored.listener
    rwa [(Listener.reports_acceptAll _ leaves).count, Listener.length_solutions] at after
  refine ⟨leaves, ?_⟩
  constructor
  · rw [run_eq nonempty]
    exact explored
  · rw [run_eq nonempty]
    intro whole inTime goesOn
    refine complete whole trivial ?_
    cases flow : (searched t st).1 with
    | proceed => rfl
    | stop => simp [flow] at goesOn
    | timedOut => simp [flow] at inTime
  · rw [run_eq nonempty, accepted, (deadline?_context st.context).1]
    cases leaves <;> simp

end SearchState

end StagedSearch
