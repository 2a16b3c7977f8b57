/-
# Courses and the engine

Every task has one course, which comes to what the engine comes to, and so does every run. So
what is proved by induction on courses holds of the engine, and what the steps of a course say
is what a run has done.

The existence is by the recursions of the engine: on the frames for `label`, on the candidates
for `tryCandidates`. Everything else is by induction on courses, with one case per way out.
-/

import StagedSearch.Proofs.Search.Run

namespace StagedSearch

namespace SearchTree

variable {ρ : Type} [Reporter ρ] {t : SearchTree} {frames : Nat} {task : SearchTask}
  {st : SearchState ρ} {steps : List (SearchStep ρ)} {outcome : Flow × SearchState ρ}

/-- What the engine makes of a task. -/
def perform (t : SearchTree) (frames : Nat) (task : SearchTask) (st : SearchState ρ) :
    Flow × SearchState ρ :=
  match task with
  | .label id depth path => t.label frames id depth path st
  | .trials id depth path size index candidates =>
    match t.node? id with
    | none => (.proceed, st)
    | some node =>
      tryCandidates (t.label frames id (depth + 1)) id node path size index candidates st

theorem perform_trials {id : NodeId} {node : SearchNode} (here : t.node? id = some node)
    (frames depth : Nat) (path : PathState) (size index : Nat) (candidates : Candidates)
    (st : SearchState ρ) :
    t.perform frames (.trials id depth path size index candidates) st =
      tryCandidates (t.label frames id (depth + 1)) id node path size index candidates st := by
  simp only [perform, here]

/-- A course comes to what the engine comes to. -/
theorem Course.outcome_eq (course : t.Course frames task st steps outcome) :
    t.perform frames task st = outcome := by
  induction course with
  | spent => rfl
  | missing none => simp only [perform, label, none]
  | solved here decided last => simp only [perform, label, here, decided, last]
  | descended here decided next _ ih =>
    simp only [perform] at ih
    simp only [perform, label, here, decided, next, SearchState.within, ih]
  | branched here picked listed _ ih =>
    rw [perform_trials here] at ih
    simp only [perform, label, here, picked, listed, ih]
    rfl
  | @emptied _ id _ _ _ _ _ _ empty =>
    cases here : t.node? id with
    | none => simp only [perform, here]
    | some node => rw [perform_trials here, tryCandidates, empty]
  | late here next expired =>
    rw [perform_trials here, tryCandidates, next]
    simp only [expired]
  | pruned here next inTime refused =>
    rw [perform_trials here, tryCandidates, next]
    simp only [inTime, refused]
  | failed here next inTime admitted fails _ ih =>
    rw [perform_trials here] at ih ⊢
    rw [tryCandidates, next]
    simp only [inTime, admitted, fails, ih]
  | returned here next inTime admitted enters _ _ ihBelow ihLater =>
    rw [perform_trials here] at ihLater ⊢
    rw [tryCandidates, next]
    simp only [perform] at ihBelow
    simp only [inTime, admitted, enters, ihBelow, ihLater]
  | ended here next inTime admitted enters _ ends ih =>
    rw [perform_trials here, tryCandidates, next]
    simp only [perform] at ih
    simp only [inTime, admitted, enters, ih]

/-- If every frame below has a course, then the trials have one. -/
theorem exists_course_tryCandidates {id : NodeId} {node : SearchNode}
    (here : t.node? id = some node) (frames depth : Nat)
    (deeper : ∀ path (st : SearchState ρ), ∃ steps,
      t.Course frames (.label id (depth + 1) path) st steps (t.label frames id (depth + 1) path st))
    (path : PathState) (size index : Nat) (candidates : Candidates) (st : SearchState ρ) :
    ∃ steps, t.Course frames (.trials id depth path size index candidates) st steps
      (tryCandidates (t.label frames id (depth + 1)) id node path size index candidates st) := by
  fun_induction tryCandidates (t.label frames id (depth + 1)) id node path size index candidates st
    with
  | case1 _ _ _ none => exact ⟨_, .emptied none⟩
  | case2 _ _ _ _ _ next _ expired => exact ⟨_, .late here next expired⟩
  | case3 _ _ _ _ _ next _ inTime refused => exact ⟨_, .pruned here next inTime refused⟩
  | case4 _ _ _ _ _ next _ inTime _ admitted _ fails ih =>
    obtain ⟨steps, later⟩ := ih
    exact ⟨_, .failed here next inTime admitted fails later⟩
  | case5 _ _ _ _ _ next _ inTime path' admitted st₂ enters _ went ih =>
    obtain ⟨inner, below⟩ := deeper path' st₂
    rw [went] at below
    obtain ⟨steps, later⟩ := ih
    exact ⟨_, .returned here next inTime admitted enters below later⟩
  | case6 _ _ _ _ _ next _ inTime path' admitted st₂ enters flow _ ends went =>
    obtain ⟨inner, below⟩ := deeper path' st₂
    rw [went] at below
    exact ⟨_, .ended here next inTime admitted enters below ends⟩

/-- Every frame has a course. -/
theorem exists_course (t : SearchTree) (frames : Nat) (id : NodeId) (depth : Nat)
    (path : PathState) (st : SearchState ρ) :
    ∃ steps, t.Course frames (.label id depth path) st steps
      (t.label frames id depth path st) := by
  induction frames generalizing id depth path st with
  | zero => exact ⟨_, .spent⟩
  | succ frames ih =>
    unfold label
    cases here : t.node? id with
    | none => exact ⟨_, .missing here⟩
    | some node =>
      simp only
      cases picked : node.search.variableOrder.select? st.store node.vars with
      | none =>
        simp only
        cases next : node.children.head? with
        | none => exact ⟨_, .solved here picked next⟩
        | some child =>
          obtain ⟨steps, below⟩ := ih child 0 .start (st.setState child .labeling)
          exact ⟨steps, .descended here picked next below⟩
      | some var =>
        obtain ⟨steps, trials⟩ := exists_course_tryCandidates here frames depth
          (fun path st => ih id (depth + 1) path st) path _ 0 _ _
        exact ⟨steps, .branched here picked rfl trials⟩

/-- All trials at a node have a course. -/
theorem exists_course_trials {id : NodeId} {node : SearchNode} (here : t.node? id = some node)
    (frames depth : Nat) (path : PathState) (size index : Nat) (candidates : Candidates)
    (st : SearchState ρ) :
    ∃ steps outcome, t.Course frames (.trials id depth path size index candidates) st steps
      outcome := by
  obtain ⟨steps, course⟩ := exists_course_tryCandidates here frames depth
    (fun path st => t.exists_course frames id (depth + 1) path st) path size index candidates st
  exact ⟨steps, _, course⟩

/-- A task has at most one course: its ways out exclude each other, because each says what the
engine finds where it goes another way. -/
theorem Course.unique {steps' : List (SearchStep ρ)} {outcome' : Flow × SearchState ρ}
    (course : t.Course frames task st steps outcome)
    (other : t.Course frames task st steps' outcome') : steps = steps' ∧ outcome = outcome' := by
  induction course generalizing steps' outcome' <;> cases other <;> grind

/-! ## What every step keeps -/

end SearchTree

namespace SearchStep

variable {ρ : Type} {first second : List (SearchStep ρ)}

@[simp]
theorem accepted_nil : accepted ([] : List (SearchStep ρ)) = [] := rfl

@[simp]
theorem accepted_look (trial : Trial) (st : SearchState ρ) (steps : List (SearchStep ρ)) :
    accepted (look trial st :: steps) = accepted steps := rfl

@[simp]
theorem accepted_decide (trial : Trial) (st : SearchState ρ) (steps : List (SearchStep ρ)) :
    accepted (decide trial st :: steps) = accepted steps := rfl

@[simp]
theorem accepted_accept (id : NodeId) (st : SearchState ρ) (steps : List (SearchStep ρ)) :
    accepted (accept id st :: steps) = st.store :: accepted steps := rfl

@[simp]
theorem accepted_append : accepted (first ++ second) = accepted first ++ accepted second :=
  List.filterMap_append

end SearchStep

namespace SearchState

variable {ρ : Type} [Reporter ρ]

omit [Reporter ρ] in
theorem quiet_of_expired (t : SearchTree) {st st' : SearchState ρ} {id : NodeId} {late : Bool}
    (expired : st.expired id = (late, st')) : Quiet t st st' := by
  have quiet := quiet_expired t st id
  rwa [expired] at quiet

omit [Reporter ρ] in
/-- Listing candidates, after a frame has been counted, only keeps accounts. -/
theorem quiet_of_listed (t : SearchTree) {st st' : SearchState ρ} {id : NodeId} {var : VarId}
    {f : Counters → Counters} {branching : Branching}
    (listed : (st.count id f).branch id var = (branching, st')) : Quiet t st st' := by
  have quiet := (quiet_count t st id f).trans (quiet_branch t (st.count id f) id var)
  rwa [listed] at quiet

omit [Reporter ρ] in
theorem listener_of_decide {st st' : SearchState ρ} {id : NodeId} {bound : Option VarId}
    {choice : Choice} {consistent : Bool} (tried : st.decide id bound choice = (consistent, st')) :
    st'.context.listener = st.context.listener := by
  rw [decide_eq] at tried
  obtain ⟨-, rfl⟩ := Prod.mk.inj tried
  split <;> rfl

/-- A property of states that every step of a search keeps. Solutions are handed over at nodes
without children, and nowhere else is their number counted. -/
structure Kept (t : SearchTree) (holds : SearchState ρ → Prop) : Prop where
  setState : ∀ st id state, holds st → holds (st.setState id state)
  count : ∀ st id (f : Counters → Counters), (∀ c, (f c).solutions = c.solutions) → holds st →
    holds (st.count id f)
  branch : ∀ st id var, holds st → holds (st.branch id var).2
  expired : ∀ st id, holds st → holds (st.expired id).2
  timeOut : ∀ st, holds st → holds st.timeOut
  decide : ∀ st id bound choice, holds st → holds (st.decide id bound choice).2
  popLevel : ∀ st, holds st → holds st.popLevel
  acceptAt : ∀ st id node, t.node? id = some node → node.children.head? = none → holds st →
    holds (st.acceptAt id node).2

variable {t : SearchTree} {holds : SearchState ρ → Prop} {st st' : SearchState ρ}

theorem Kept.of_expired (kept : Kept t holds) (start : holds st) {id : NodeId} {late : Bool}
    (expired : st.expired id = (late, st')) : holds st' := by
  have after := kept.expired st id start
  rwa [expired] at after

theorem Kept.of_decide (kept : Kept t holds) (start : holds st) {id : NodeId}
    {bound : Option VarId} {choice : Choice} {consistent : Bool}
    (tried : st.decide id bound choice = (consistent, st')) : holds st' := by
  have after := kept.decide st id bound choice start
  rwa [tried] at after

theorem Kept.of_listed (kept : Kept t holds) (start : holds st) {id : NodeId} {var : VarId}
    {f : Counters → Counters} {branching : Branching}
    (listed : (st.count id f).branch id var = (branching, st'))
    (keeps : ∀ c, (f c).solutions = c.solutions) : holds st' := by
  have after := kept.branch _ id var (kept.count st id f keeps start)
  rwa [listed] at after

theorem Kept.backtrack (kept : Kept t holds) (start : holds st) (id : NodeId) (before : Nat) :
    holds (st.backtrack id before) := by
  unfold SearchState.backtrack
  split
  · exact kept.setState _ _ _ (kept.count _ _ _ (fun _ => rfl) start)
  · exact start

end SearchState

namespace SearchTree

variable {ρ : Type} [Reporter ρ] {t : SearchTree} {frames : Nat} {task : SearchTask}
  {st : SearchState ρ} {steps : List (SearchStep ρ)} {outcome : Flow × SearchState ρ}

/-- What every step keeps holds in every state of a course. -/
theorem Course.invariant {holds : SearchState ρ → Prop} (kept : SearchState.Kept t holds)
    (course : t.Course frames task st steps outcome) (start : holds st) :
    holds outcome.2 ∧ ∀ step ∈ steps, holds step.state := by
  induction course with
  | spent => exact ⟨start, by simp⟩
  | missing => exact ⟨start, by simp⟩
  | solved here _ last => exact ⟨kept.acceptAt _ _ _ here last start, by simpa using start⟩
  | descended _ _ _ _ ih =>
    obtain ⟨after, during⟩ := ih (kept.setState _ _ _ start)
    exact ⟨kept.setState _ _ _ after, during⟩
  | @branched _ _ _ _ _ _ _ _ _ _ _ flow _ _ listed _ ih =>
    obtain ⟨after, during⟩ := ih (kept.of_listed start listed fun _ => rfl)
    refine ⟨?_, during⟩
    show holds (if flow = .proceed then _ else _)
    split
    · exact kept.backtrack after _ _
    · exact after
  | emptied => exact ⟨start, by simp⟩
  | late _ _ expired =>
    exact ⟨kept.timeOut _ (kept.of_expired start expired), by simpa using start⟩
  | pruned _ _ inTime _ => exact ⟨kept.of_expired start inTime, by simpa using start⟩
  | failed _ _ inTime _ fails _ ih =>
    have looked := kept.of_expired start inTime
    obtain ⟨after, during⟩ := ih (kept.of_decide looked fails)
    exact ⟨after, by simpa [SearchStep.state, start, looked] using during⟩
  | returned _ _ inTime _ enters _ _ ihBelow ihLater =>
    have looked := kept.of_expired start inTime
    obtain ⟨between, inside⟩ := ihBelow (kept.of_decide looked enters)
    obtain ⟨after, during⟩ := ihLater (kept.popLevel _ between)
    refine ⟨after, ?_⟩
    simp only [List.mem_cons, List.mem_append]
    rintro step (rfl | rfl | early | later)
    · exact start
    · exact looked
    · exact inside step early
    · exact during step later
  | ended _ _ inTime _ enters _ _ ih =>
    have looked := kept.of_expired start inTime
    obtain ⟨between, inside⟩ := ih (kept.of_decide looked enters)
    exact ⟨kept.popLevel _ between, by simpa [SearchStep.state, start, looked] using inside⟩

/-- A course hands its stores to the listener, one after the other, and tells it nothing else. -/
theorem Course.listener (course : t.Course frames task st steps outcome) :
    outcome.2.context.listener = st.context.listener.acceptAll (SearchStep.accepted steps) := by
  induction course with
  | spent => rfl
  | missing => rfl
  | solved => exact (SearchState.setIncumbent_keeps _ _).2.2
  | descended _ _ _ _ ih => exact ih
  | @branched _ _ _ _ _ _ _ _ _ _ _ flow _ _ listed _ ih =>
    have quiet := SearchState.quiet_of_listed t listed
    refine (SearchState.quiet_ite_backtrack t _ _ _ (flow = .proceed)).listener.trans ?_
    exact ih.trans (congrArg (Listener.acceptAll · _) quiet.listener)
  | emptied => rfl
  | late _ _ expired => exact (SearchState.quiet_of_expired t expired).listener
  | pruned _ _ inTime _ => exact (SearchState.quiet_of_expired t inTime).listener
  | failed _ _ inTime _ fails _ ih =>
    rw [ih, SearchState.listener_of_decide fails, (SearchState.quiet_of_expired t inTime).listener]
    rfl
  | returned _ _ inTime _ enters _ _ ihBelow ihLater =>
    simp only [SearchStep.accepted_look, SearchStep.accepted_decide, SearchStep.accepted_append,
      Listener.acceptAll_append]
    rw [ihLater, ← (SearchState.quiet_of_expired t inTime).listener,
      ← SearchState.listener_of_decide enters, ← ihBelow]
    rfl
  | ended _ _ inTime _ enters _ _ ih =>
    rw [SearchStep.accepted_look, SearchStep.accepted_decide,
      ← (SearchState.quiet_of_expired t inTime).listener,
      ← SearchState.listener_of_decide enters, ← ih]
    rfl

/-! ## Runs -/

/-- A run that fails before it searches. -/
theorem run_of_inconsistent {root : NodeId} (found : t.root? = some root)
    (fails : st.store.pushLevel.consistency.1 = false) :
    t.run st =
      (⟨false, false, false⟩, ((SearchState.started t st).setState root .exhausted).popLevel) := by
  unfold run SearchState.started
  simp [found, fails, SearchState.accepted, SearchState.setState]

/-- A run that searches. -/
theorem Course.run_eq {root : NodeId} {flow : Flow} {st' : SearchState ρ}
    (course : t.Course (t.frameBound st.store) (.label root 0 .start)
      ((SearchState.started t st).setState root .labeling) steps (flow, st'))
    (found : t.root? = some root) (succeeds : st.store.pushLevel.consistency.1 = true) :
    t.run st =
      (⟨decide (st.context.listener.count < st'.accepted), decide (flow = .timedOut),
        decide (flow = .stop)⟩,
        (st'.setState root (if flow = .timedOut then .timedOut else .exhausted)).popLevel) := by
  have came := course.outcome_eq
  simp only [perform, SearchState.started, SearchState.setState] at came
  unfold run
  simp only [found, succeeds, if_true, SearchState.within, SearchState.setState, came,
    (SearchState.deadline?_context st.context).1]
  rfl

/-- Every run has a course. -/
theorem exists_follows (t : SearchTree) (st : SearchState ρ) : ∃ steps, t.Follows st steps := by
  cases found : t.root? with
  | none => exact ⟨[], .empty found⟩
  | some root =>
    cases consistent : st.store.pushLevel.consistency.1 with
    | false => exact ⟨[], .inconsistent found consistent⟩
    | true =>
      obtain ⟨steps, course⟩ := t.exists_course (t.frameBound st.store) root 0 .start
        ((SearchState.started t st).setState root .labeling)
      exact ⟨steps, .searched found consistent course⟩

/-- A run has only one course. -/
theorem Follows.unique {steps' : List (SearchStep ρ)} (follows : t.Follows st steps)
    (other : t.Follows st steps') : steps = steps' := by
  cases follows <;> cases other <;> grind [Course.unique]

/-- A run hands its stores to the listener, one after the other, and tells it nothing else. -/
theorem Follows.listener (follows : t.Follows st steps) :
    (t.run st).2.context.listener = st.context.listener.acceptAll (SearchStep.accepted steps) := by
  have listener : (SearchState.started t st).context.listener = st.context.listener :=
    (SearchState.deadline?_context st.context).1
  cases follows with
  | empty none => rw [SearchState.run_eq_of_empty (root?_eq_none_iff.1 none)]; rfl
  | inconsistent found fails =>
    rw [run_of_inconsistent found fails]
    exact listener
  | @searched root _ outcome found succeeds course =>
    rw [course.run_eq found succeeds]
    exact course.listener.trans (congrArg (Listener.acceptAll · _) listener)

end SearchTree

end StagedSearch
