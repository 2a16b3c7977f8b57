/-
# Deadlines

The deadline of a run is noted at every node when the run begins, and it never changes (`Armed`).
So every comparison with the clock is one with this deadline, and a decision is taken only after
a comparison that was in time. That no earlier reading was late either is where the clock may
not go back.

Together with the run that has no time limit, and with the states that the nodes are left in,
this is what a time limit means (`MeetsDeadline`). It is said of any tree that was grown, and of
stores and listeners nothing is assumed. The deadline is the exact sum of the first reading and the
limit; a run for which this is no time that can be told does not begin (`SearchTree.launch`).
-/

import StagedSearch.Proofs.Search.Reports
import StagedSearch.Proofs.Search.Untimed

namespace StagedSearch

namespace SearchTree

variable {ρ : Type} [Reporter ρ]

/-- A run takes some steps, and reports the stores that they hand over as some solutions. -/
structure Reports (t : SearchTree) (st : SearchState ρ) (steps : List (SearchStep ρ))
    (solutions : List Solution) : Prop where
  follows : t.Follows st steps
  reports : st.context.listener.Reports (t.run st).2.context.listener solutions
  values : solutions.map Solution.values = (SearchStep.accepted steps).map Store.decidedValues

/-- What a run with a deadline makes of it. No decision is taken when a reading of the clock was
late; the time is up exactly if a reading before a candidate was late; and when the run has
returned, no node is at work, and the time is up at the node of that candidate and at the nodes
above, and nowhere else. -/
structure MeetsDeadline (t : SearchTree) (st : SearchState ρ) (steps : List (SearchStep ρ))
    (deadline : Nat) : Prop where
  decides : ∀ trial st', .decide trial st' ∈ steps →
    ∀ reading < st'.context.clock.reads, st.context.clock.timeAt reading < deadline
  timedOut : (t.run st).1.timedOut = true ↔
    ∃ trial st', .look trial st' ∈ steps ∧ deadline ≤ st'.context.clock.read.1
  nodes : (t.run st).2.progress.size = t.size
  left : ∀ id state, (t.run st).2.progress.state? id = some state →
    state = .ready ∨ state = .exhausted ∨ state = .timedOut
  late : ∀ trial st', .look trial st' ∈ steps → deadline ≤ st'.context.clock.read.1 →
    ∀ id state, (t.run st).2.progress.state? id = some state →
      (state = .timedOut ↔ id = trial.id ∨ id ∈ t.ancestors trial.id)
  inTime : (t.run st).1.timedOut = false →
    ∀ id state, (t.run st).2.progress.state? id = some state → state ≠ .timedOut

end SearchTree

/-- A clock that moves forward by steps never goes back, because its counter stays at its end. -/
theorem Clock.neverGoesBack_ofStep (step : Nat) : (ofStep step).NeverGoesBack := by
  intro earlier later le
  show Unsigned64.saturate (earlier * _) ≤ Unsigned64.saturate (later * _)
  have := Nat.mul_le_mul_right (Unsigned64.saturate step) le
  unfold Unsigned64.saturate at *
  omega

/-! ## The deadline is kept -/

theorem Progress.deadline?_modifyNode (p : Progress) (id other : Nat)
    {f : NodeProgress → NodeProgress} (keeps : ∀ n, (f n).deadline = n.deadline) :
    (p.modifyNode id f).deadline? other = p.deadline? other := by
  unfold deadline?
  rw [SearchState.getElem?_modifyNode]
  split
  · cases p[other]? with
    | none => rfl
    | some n => exact keeps n
  · rfl

namespace SearchState

variable {ρ : Type} {size deadline : Nat} {timeAt : Nat → Nat} {st st' : SearchState ρ}

/-- Every node has the deadline, and the clock is the one with the given readings. -/
structure Armed (size deadline : Nat) (timeAt : Nat → Nat) (st : SearchState ρ) : Prop where
  nodes : st.progress.size = size
  deadlines : ∀ id < size, st.progress.deadline? id = some deadline
  clock : st.context.clock.timeAt = timeAt

theorem Armed.modifyNode (armed : Armed size deadline timeAt st) (id : Nat)
    {f : NodeProgress → NodeProgress} (keeps : ∀ n, (f n).deadline = n.deadline) :
    Armed size deadline timeAt { st with progress := st.progress.modifyNode id f } where
  nodes := (Array.size_modify).trans armed.nodes
  deadlines other inside :=
    (st.progress.deadline?_modifyNode id other keeps).trans (armed.deadlines other inside)
  clock := armed.clock

theorem Armed.setState (armed : Armed size deadline timeAt st) (id : Nat) (state : NodeState) :
    Armed size deadline timeAt (st.setState id state) :=
  armed.modifyNode id (by intro _; rfl)

theorem Armed.count (armed : Armed size deadline timeAt st) (id : Nat) (f : Counters → Counters) :
    Armed size deadline timeAt (st.count id f) :=
  armed.modifyNode id (by intro _; rfl)

theorem Armed.branch (armed : Armed size deadline timeAt st) (id : Nat) (var : VarId) :
    Armed size deadline timeAt (st.branch id var).2 := by
  unfold SearchState.branch
  split
  · exact armed
  · exact armed.modifyNode id (by intro _; rfl)

theorem Armed.expired (armed : Armed size deadline timeAt st) (id : Nat) :
    Armed size deadline timeAt (st.expired id).2 := by
  unfold SearchState.expired
  split
  · exact armed
  · exact ⟨armed.nodes, armed.deadlines, armed.clock⟩

theorem Armed.decide (armed : Armed size deadline timeAt st) (id : Nat) (bound : Option VarId)
    (choice : Choice) : Armed size deadline timeAt (st.decide id bound choice).2 := by
  have counted (f : Counters → Counters) := armed.count id f
  rw [decide_eq]
  split
  · exact ⟨(counted _).nodes, (counted _).deadlines, armed.clock⟩
  · exact ⟨(counted _).nodes, (counted _).deadlines, armed.clock⟩

theorem Armed.acceptAt [Reporter ρ] (armed : Armed size deadline timeAt st) (id : Nat)
    (node : SearchNode) : Armed size deadline timeAt (st.acceptAt id node).2 := by
  have counted (f : Counters → Counters) := (armed.setState id .solutionAtLeaf).count id f
  have handed : Armed size deadline timeAt (st.handed id) :=
    ⟨(counted _).nodes, (counted _).deadlines, armed.clock⟩
  rw [acceptAt_eq]
  show Armed size deadline timeAt ((st.handed id).setIncumbent node)
  unfold setIncumbent
  split
  · exact handed
  · exact ⟨handed.nodes, handed.deadlines, handed.clock⟩

theorem kept_armed [Reporter ρ] (t : SearchTree) :
    Kept t (Armed size deadline timeAt : SearchState ρ → Prop) where
  setState _ id state armed := armed.setState id state
  count _ id f _ armed := armed.count id f
  branch _ id var armed := armed.branch id var
  expired _ id armed := armed.expired id
  timeOut _ armed := ⟨armed.nodes, armed.deadlines, armed.clock⟩
  decide _ id bound choice armed := armed.decide id bound choice
  popLevel _ armed := ⟨armed.nodes, armed.deadlines, armed.clock⟩
  acceptAt _ id node _ _ armed := armed.acceptAt id node

/-- Whether the time is up is a matter of the deadline and the next reading. -/
theorem Armed.expired_eq (armed : Armed size deadline timeAt st) {id : Nat} (inside : id < size) :
    st.expired id =
      (Decidable.decide (deadline ≤ st.context.clock.read.1),
        { st with context := st.context.readClock.2 }) := by
  unfold SearchState.expired
  rw [armed.deadlines id inside]
  rfl

/-- After a comparison that was in time, all readings were in time. -/
theorem Armed.readings_lt (armed : Armed size deadline timeAt st) {id : Nat} (inside : id < size)
    (forward : ∀ earlier later, earlier ≤ later → timeAt earlier ≤ timeAt later)
    (inTime : st.expired id = (false, st')) {reading : Nat}
    (read : reading < st'.context.clock.reads) : timeAt reading < deadline := by
  rw [armed.expired_eq inside] at inTime
  obtain ⟨early, rfl⟩ := Prod.mk.inj inTime
  have last : timeAt st.context.clock.reads < deadline := by
    rw [← armed.clock]
    exact Nat.lt_of_not_le (of_decide_eq_false early)
  exact (forward _ _ (Nat.le_of_lt_succ read)).trans_lt last

end SearchState

namespace SearchTree

variable {ρ : Type} [Reporter ρ] {t : SearchTree} {frames : Nat} {task : SearchTask}
  {st : SearchState ρ} {steps : List (SearchStep ρ)} {outcome : Flow × SearchState ρ}

/-- The clock is compared with the deadline at nodes of the tree. -/
theorem Course.lt_size_of_look (course : t.Course frames task st steps outcome) {trial : Trial}
    {st' : SearchState ρ} (looks : .look trial st' ∈ steps) : trial.id < t.size := by
  induction course with
  | spent | missing | emptied | solved => simp at looks
  | descended _ _ _ _ ih | branched _ _ _ _ ih => exact ih looks
  | late here | pruned here =>
    simp only [List.mem_singleton, SearchStep.look.injEq] at looks
    rw [looks.1]
    exact lt_size_of_node? here
  | failed here _ _ _ _ _ ih | ended here _ _ _ _ _ _ ih =>
    simp only [List.mem_cons, SearchStep.look.injEq, reduceCtorEq, false_or] at looks
    rcases looks with ⟨rfl, -⟩ | looks
    · exact lt_size_of_node? here
    · exact ih looks
  | returned here _ _ _ _ _ _ ihBelow ihLater =>
    simp only [List.mem_cons, List.mem_append, SearchStep.look.injEq, reduceCtorEq,
      false_or] at looks
    rcases looks with ⟨rfl, -⟩ | looks | looks
    · exact lt_size_of_node? here
    · exact ihBelow looks
    · exact ihLater looks

/-- A candidate is decided after a comparison that was in time. -/
theorem Course.exists_look_of_decide (course : t.Course frames task st steps outcome)
    {trial : Trial} {st' : SearchState ρ} (decides : .decide trial st' ∈ steps) :
    ∃ before, .look trial before ∈ steps ∧ before.expired trial.id = (false, st') := by
  induction course with
  | spent | missing | emptied | solved | late | pruned => simp at decides
  | descended _ _ _ _ ih | branched _ _ _ _ ih => exact ih decides
  | failed _ _ inTime _ _ _ ih | ended _ _ inTime _ _ _ _ ih =>
    simp only [List.mem_cons, SearchStep.decide.injEq, reduceCtorEq, false_or] at decides
    rcases decides with ⟨rfl, rfl⟩ | decides
    · exact ⟨_, List.mem_cons_self, inTime⟩
    · obtain ⟨before, looks, inTime⟩ := ih decides
      exact ⟨before, by simp [looks], inTime⟩
  | returned _ _ inTime _ _ _ _ ihBelow ihLater =>
    simp only [List.mem_cons, List.mem_append, SearchStep.decide.injEq, reduceCtorEq,
      false_or] at decides
    rcases decides with ⟨rfl, rfl⟩ | decides | decides
    · exact ⟨_, List.mem_cons_self, inTime⟩
    · obtain ⟨before, looks, inTime⟩ := ihBelow decides
      exact ⟨before, by simp [looks], inTime⟩
    · obtain ⟨before, looks, inTime⟩ := ihLater decides
      exact ⟨before, by simp [looks], inTime⟩

/-! ## Runs with a time limit -/

omit [Reporter ρ] in
/-- A run with a time limit begins with its deadline noted at all nodes. -/
theorem Grown.armed_started (grown : t.Grown) (nodes : st.progress.size = t.size) {limit : Nat}
    (limited : st.context.timeLimit = some limit) :
    SearchState.Armed t.size (st.context.clock.read.1 + limit) st.context.clock.timeAt
      (SearchState.started t st) := by
  have context : st.context.deadline? =
      (some (st.context.clock.read.1 + limit), st.context.readClock.2) := by
    unfold Context.deadline?
    rw [limited]
    rfl
  unfold SearchState.started
  rw [context]
  refine ⟨(Progress.size_start _ _ _).trans nodes, fun id inside => ?_, rfl⟩
  obtain ⟨n, here⟩ : ∃ n, st.progress[id]? = some n :=
    ⟨_, Array.getElem?_eq_getElem (nodes.symm ▸ inside)⟩
  unfold Progress.deadline?
  rw [Progress.getElem?_start, if_pos (grown.mem_preOrder_iff.2 inside), here]
  rfl

/-- In all states of a run with a time limit, its deadline is noted at all nodes. -/
theorem Follows.armed (grown : t.Grown) (nodes : st.progress.size = t.size) {limit : Nat}
    (limited : st.context.timeLimit = some limit) (follows : t.Follows st steps) :
    (t.run st).2.progress.size = t.size ∧ ∀ step ∈ steps,
      SearchState.Armed t.size (st.context.clock.read.1 + limit) st.context.clock.timeAt
        step.state := by
  have started := grown.armed_started nodes limited
  cases follows with
  | empty none =>
    rw [SearchState.run_eq_of_empty (root?_eq_none_iff.1 none)]
    exact ⟨nodes, by simp⟩
  | inconsistent found fails =>
    rw [run_of_inconsistent found fails]
    exact ⟨(started.setState _ _).nodes, by simp⟩
  | @searched root _ outcome found succeeds course =>
    obtain ⟨after, during⟩ :=
      course.invariant (SearchState.kept_armed t) (started.setState root .labeling)
    rw [course.run_eq found succeeds]
    exact ⟨(after.setState root _).nodes, during⟩

/-- The comparisons of a run take place at nodes of the tree. -/
theorem Follows.lt_size_of_look (follows : t.Follows st steps) {trial : Trial}
    {st' : SearchState ρ} (looks : .look trial st' ∈ steps) : trial.id < t.size := by
  cases follows with
  | empty | inconsistent => simp at looks
  | searched _ _ course => exact course.lt_size_of_look looks

/-- A run decides a candidate after a comparison that was in time. -/
theorem Follows.exists_look_of_decide (follows : t.Follows st steps) {trial : Trial}
    {st' : SearchState ρ} (decides : .decide trial st' ∈ steps) :
    ∃ before, .look trial before ∈ steps ∧ before.expired trial.id = (false, st') := by
  cases follows with
  | empty | inconsistent => simp at decides
  | searched _ _ course => exact course.exists_look_of_decide decides

/-- What is noticed in a run with a time limit is a reading that is not before the deadline. -/
theorem Follows.expired_iff (grown : t.Grown) (nodes : st.progress.size = t.size) {limit : Nat}
    (limited : st.context.timeLimit = some limit) (follows : t.Follows st steps) {trial : Trial}
    {st' : SearchState ρ} (looks : .look trial st' ∈ steps) :
    (st'.expired trial.id).1 = true ↔
      st.context.clock.read.1 + limit ≤ st'.context.clock.read.1 := by
  have armed : SearchState.Armed _ _ _ st' := (follows.armed grown nodes limited).2 _ looks
  rw [armed.expired_eq (follows.lt_size_of_look looks), decide_eq_true_iff]

theorem Follows.meetsDeadline (grown : t.Grown) (nodes : st.progress.size = t.size)
    (forward : st.context.clock.NeverGoesBack) {limit : Nat}
    (limited : st.context.timeLimit = some limit) (follows : t.Follows st steps) :
    t.MeetsDeadline st steps (st.context.clock.read.1 + limit) := by
  obtain ⟨size, armed⟩ := follows.armed grown nodes limited
  have late {trial : Trial} {st' : SearchState ρ} (looks : .look trial st' ∈ steps) :=
    follows.expired_iff grown nodes limited looks
  have readings (trial : Trial) (st' : SearchState ρ) (decides : .decide trial st' ∈ steps)
      (reading : Nat) (read : reading < st'.context.clock.reads) :
      st.context.clock.timeAt reading < st.context.clock.read.1 + limit := by
    obtain ⟨before, looks, inTime⟩ := follows.exists_look_of_decide decides
    exact (armed _ looks).readings_lt (follows.lt_size_of_look looks) forward inTime read
  -- whether it was noticed that the time is up is the case distinction of all that is left
  rcases follows.left grown nodes with ⟨inTime, unnoticed, left⟩ | ⟨place, timedOut, noticed, left⟩
  · have never (trial : Trial) (st' : SearchState ρ) (looks : .look trial st' ∈ steps) :
        ¬ st.context.clock.read.1 + limit ≤ st'.context.clock.read.1 := by
      rw [← late looks]
      intro expired
      have member := SearchStep.mem_noticed looks expired
      rw [unnoticed] at member
      exact List.not_mem_nil member
    refine ⟨readings, ?_, size, fun id state here => (left id state here).1,
      fun trial st' looks late => absurd late (never trial st' looks), fun _ id state here => ?_⟩
    · rw [inTime]
      exact ⟨nofun, fun ⟨trial, st', looks, late⟩ => absurd late (never trial st' looks)⟩
    · exact fun up => (left id state here).2.1 up
  · have only (trial : Trial) (st' : SearchState ρ) (looks : .look trial st' ∈ steps)
        (up : st.context.clock.read.1 + limit ≤ st'.context.clock.read.1) : trial.id = place := by
      have member := SearchStep.mem_noticed looks ((late looks).2 up)
      rwa [noticed, List.mem_singleton] at member
    refine ⟨readings, ⟨fun _ => ?_, fun _ => timedOut⟩, size,
      fun id state here => (left id state here).1, fun trial st' looks up id state here => ?_,
      fun inTime => ?_⟩
    · have member : place ∈ SearchStep.noticed steps := noticed ▸ List.mem_singleton_self place
      obtain ⟨trial, st', looks, expired, -⟩ := SearchStep.exists_of_mem_noticed member
      exact ⟨trial, st', looks, (late looks).1 expired⟩
    · rw [only trial st' looks up]
      exact (left id state here).2
    · rw [timedOut] at inTime
      cases inTime

theorem Follows.reports (follows : t.Follows st steps) :
    t.Reports st steps (st.context.listener.solutions (SearchStep.accepted steps)) where
  follows := follows
  reports := follows.listener ▸ st.context.listener.reports_acceptAll _
  values := st.context.listener.values_solutions _

/-- A run with a time limit reports the first of the solutions that the same run without the limit
reports, and it keeps its deadline. -/
theorem meets_deadline (grown : t.Grown) (nodes : st.progress.size = t.size)
    (forward : st.context.clock.NeverGoesBack) {limit : Nat}
    (limited : st.context.timeLimit = some limit) :
    ∃ (steps whole : List (SearchStep ρ)) (found all : List Solution),
      t.Reports st steps found ∧ t.Reports st.unlimited whole all ∧
      SearchStep.accepted steps <+: SearchStep.accepted whole ∧ found <+: all ∧
      t.MeetsDeadline st steps (st.context.clock.read.1 + limit) := by
  obtain ⟨steps, follows⟩ := t.exists_follows st
  obtain ⟨whole, follows', first⟩ := follows.exists_unlimited grown nodes
  exact ⟨steps, whole, _, _, follows.reports, follows'.reports, first,
    st.context.listener.solutions_prefix first, follows.meetsDeadline grown nodes forward limited⟩

/-- Two of four solutions are found in time. The fifth reading is late, at the second node. -/
theorem meets_deadline_second_node :
    ∃ (t : SearchTree) (st : SearchState NoReporter) (steps whole : List (SearchStep NoReporter))
      (found all : List Solution), t.Grown ∧ st.progress.size = t.size ∧
      st.context.clock.NeverGoesBack ∧ st.context.timeLimit = some 5 ∧
      t.Reports st steps found ∧ t.Reports st.unlimited whole all ∧
      SearchStep.accepted steps <+: SearchStep.accepted whole ∧ found <+: all ∧
      t.MeetsDeadline st steps (st.context.clock.read.1 + 5) ∧ found.length = 2 ∧
      all.length = 4 ∧ (t.run st).1.timedOut = true ∧
      (t.run st).2.progress.map NodeProgress.state = #[.timedOut, .timedOut] := by
  let s := StoreOperation.applyAll Store.empty [.declareBool "x", .declareBool "y"]
  let t := SearchTree.ofStages none
    [⟨⟨.int, [⟨0⟩], .inputOrder, .min, .complete, .ascending⟩, .explicit⟩,
      ⟨⟨.int, [⟨1⟩], .inputOrder, .min, .complete, .ascending⟩, .completion⟩]
  let context : Context NoReporter :=
    { Context.ofListener (Listener.all none) with clock := Clock.ofStep 1, timeLimit := some 5 }
  let st : SearchState NoReporter := ⟨Progress.ofTree t, s, context⟩
  have grown : t.Grown := grown_ofStages _ _
  have nodes : st.progress.size = t.size := Array.size_map
  have forward : st.context.clock.NeverGoesBack := Clock.neverGoesBack_ofStep 1
  obtain ⟨steps, whole, found, all, reports, reports', first, first', meets⟩ :=
    meets_deadline grown nodes forward rfl
  have count : (t.run st).2.context.listener.count = 2 := by decide +kernel
  have count' : (t.run st.unlimited).2.context.listener.count = 4 := by decide +kernel
  have length := reports.reports.count.symm.trans count
  have length' := reports'.reports.count.symm.trans count'
  rw [show st.context.listener.count = 0 from rfl, Nat.zero_add] at length
  rw [show st.unlimited.context.listener.count = 0 from rfl, Nat.zero_add] at length'
  exact ⟨t, st, steps, whole, found, all, grown, nodes, forward, rfl, reports, reports', first,
    first', meets, length, length', by decide +kernel, by decide +kernel⟩

end SearchTree

end StagedSearch
