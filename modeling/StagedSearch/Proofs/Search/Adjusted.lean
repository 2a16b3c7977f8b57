/-
# The same search with another listener

A search looks at its listener only to count solutions and to hand them over. So it does not
matter to anything else that the listener is adjusted, by another limit or another reporter, and
where the adjusted listener gives the same answer, a solution is handed over in the same way.
-/

import StagedSearch.Proofs.Search.Simulation

namespace StagedSearch

namespace SearchState

variable {ρ : Type} {adjustment : Listener ρ → Listener ρ} {st : SearchState ρ}

def adjust (adjustment : Listener ρ → Listener ρ) (st : SearchState ρ) : SearchState ρ :=
  { st with context := { st.context with listener := adjustment st.context.listener } }

theorem branch_adjust (id : NodeId) (var : VarId) :
    (st.adjust adjustment).branch id var =
      ((st.branch id var).1, (st.branch id var).2.adjust adjustment) := by
  unfold branch adjust
  cases st.progress[id]? <;> rfl

theorem decide_adjust (id : NodeId) (bound : Option VarId) (choice : Choice) :
    (st.adjust adjustment).decide id bound choice =
      ((st.decide id bound choice).1, (st.decide id bound choice).2.adjust adjustment) := by
  rw [decide_eq, decide_eq]
  refine Prod.ext rfl ?_
  show (if (st.store.pushLevel.attempt choice bound st.context.incumbent?).1 = true then _
    else _) = SearchState.adjust adjustment
      (if (st.store.pushLevel.attempt choice bound st.context.incumbent?).1 = true then _ else _)
  split <;> rfl

theorem expired_adjust (id : NodeId) :
    (st.adjust adjustment).expired id =
      ((st.expired id).1, (st.expired id).2.adjust adjustment) := by
  unfold expired adjust
  simp only
  cases st.progress.deadline? id <;> rfl

theorem setIncumbent_adjust (node : SearchNode) :
    (st.adjust adjustment).setIncumbent node = (st.setIncumbent node).adjust adjustment := by
  unfold setIncumbent
  rw [show (st.adjust adjustment).store = st.store from rfl]
  cases if node.optimizing then boundValue? st.store node.bound else none <;> rfl

/-- Adjusting a listener of some kind matters only for the clock and for what is handed over. -/
theorem parallel_adjust {kind : Listener ρ → Prop}
    (count : ∀ l, kind l → (adjustment l).count = l.count) :
    Parallel fun st u => kind st.context.listener ∧ u = st.adjust adjustment where
  store := by
    rintro st _ ⟨-, rfl⟩
    rfl
  accepted := by
    rintro st _ ⟨here, rfl⟩
    exact count _ here
  setState := by
    rintro st _ id state ⟨here, rfl⟩
    exact ⟨here, rfl⟩
  count := by
    rintro st _ id f ⟨here, rfl⟩
    exact ⟨here, rfl⟩
  popLevel := by
    rintro st _ ⟨here, rfl⟩
    exact ⟨here, rfl⟩
  branch := by
    rintro st _ id var ⟨here, rfl⟩
    rw [branch_adjust]
    exact ⟨rfl, (quiet_branch SearchTree.empty st id var).listener ▸ here, rfl⟩
  decide := by
    rintro st _ id bound choice ⟨here, rfl⟩
    rw [decide_adjust]
    have kept : (st.decide id bound choice).2.context.listener = st.context.listener :=
      listener_of_decide rfl
    exact ⟨rfl, kept.symm ▸ here, rfl⟩
  timeOut := by
    rintro st _ ⟨here, rfl⟩
    exact ⟨here, rfl⟩

theorem expired_parallel {kind : Listener ρ → Prop} (here : kind st.context.listener)
    (id : NodeId) :
    ((st.adjust adjustment).expired id).1 = (st.expired id).1 ∧
      kind (st.expired id).2.context.listener ∧
      ((st.adjust adjustment).expired id).2 = (st.expired id).2.adjust adjustment := by
  rw [expired_adjust]
  exact ⟨rfl, (quiet_expired SearchTree.empty st id).listener ▸ here, rfl⟩

variable [Reporter ρ]

/-- If the adjusted listener answers as the listener does, and what it becomes is adjusted too,
then a solution is handed over in the same way. -/
theorem acceptAt_adjust {later : Listener ρ → Listener ρ} (id : NodeId) (node : SearchNode)
    (next : (adjustment st.context.listener).nextSolution st.store =
      st.context.listener.nextSolution st.store)
    (accept : (adjustment st.context.listener).accept st.store =
      ((st.context.listener.accept st.store).1, later (st.context.listener.accept st.store).2))
    (count : (later (st.context.listener.accept st.store).2).count =
      (st.context.listener.accept st.store).2.count) :
    (st.adjust adjustment).acceptAt id node =
      ((st.acceptAt id node).1, (st.acceptAt id node).2.adjust later) := by
  have context : ((st.adjust adjustment).context.accept st.store).2 =
      { (st.context.accept st.store).2 with
        listener := later (st.context.accept st.store).2.listener } := by
    unfold Context.accept
    simp only [adjust, Context.note, next, accept]
  have handed : (st.adjust adjustment).handed id = (st.handed id).adjust later := by
    unfold SearchState.handed
    rw [show (st.adjust adjustment).store = st.store from rfl]
    simp only [context]
    rw [show (later (st.context.accept st.store).2.listener).count =
      (st.context.accept st.store).2.listener.count from count]
    rfl
  rw [acceptAt_eq, acceptAt_eq, handed, setIncumbent_adjust]
  refine Prod.ext ?_ rfl
  show (if ((adjustment st.context.listener).accept st.store).1 = true then Flow.proceed
    else Flow.stop) = _
  rw [accept]

end SearchState

namespace SearchTree

variable {ρ : Type} {t : SearchTree} {st : SearchState ρ}

theorem started_adjust (adjustment : Listener ρ → Listener ρ) :
    SearchState.started t (st.adjust adjustment) =
      (SearchState.started t st).adjust adjustment := by
  unfold SearchState.started SearchState.adjust Context.deadline?
  cases st.context.timeLimit <;> rfl

end SearchTree

end StagedSearch
