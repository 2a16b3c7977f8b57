/-
# What the status of a solve says

The status of a solve that returns is true of the store. It is computed from four flags: whether
a solution was found, the time was up, the limit was reached, and the tree leaves nothing out.
Where it is `exhausted` or `unsatisfiable`, the run was neither late nor stopped, for a run is
stopped only by the limit or by a report that fails, and a solve with a failed report does not
return. Such a run has exhausted the store, and what that shows is known.
-/

import StagedSearch.Proofs.Search.Optimum
import StagedSearch.Proofs.Solve.Returns

namespace StagedSearch

namespace SearchStatus

variable {result : SearchResult} {searchAll limitReached complete : Bool}

theorem ofResult_eq_unsatisfiable_iff :
    ofResult result searchAll limitReached complete = .unsatisfiable ↔
      result.timedOut = false ∧ result.found = false ∧ complete = true := by
  unfold ofResult
  split_ifs <;> simp_all

theorem ofResult_eq_exhausted_iff :
    ofResult result searchAll limitReached complete = .exhausted ↔
      result.timedOut = false ∧ result.found = true ∧ searchAll = true ∧
        limitReached = false ∧ complete = true := by
  unfold ofResult
  split_ifs <;> simp_all

end SearchStatus

namespace Protocol

variable {status : SearchStatus} {found : Bool}

/-- The line of an exhausted search stands for that status only. -/
theorem mem_statusLines_exhausted_iff :
    "==========" ∈ statusLines status found ↔ status = .exhausted := by
  cases status <;> cases found <;> simp [statusLines]

/-- The line of an unsatisfiable search stands for that status only. -/
theorem mem_statusLines_unsatisfiable_iff :
    "=====UNSATISFIABLE=====" ∈ statusLines status found ↔ status = .unsatisfiable := by
  cases status <;> cases found <;> simp [statusLines]

end Protocol

namespace Solving

variable {request : SolveRequest} {spec : SearchSpec} {session after : Session}
  {outcome : SolveOutcome} {t : SearchTree} {st : SearchState ProtocolReporter}

/-- What is known of the run that a solve begins: it starts with a listener that has not accepted
anything, on the store on which the cost is wired. -/
structure Began (request : SolveRequest) (spec : SearchSpec) (s : Store) (t : SearchTree)
    (st : SearchState ProtocolReporter) (objective : Option Objective) (leaves : List Store) :
    Prop where
  wired : spec.wireCost s = .ok (objective, st.store)
  ran : SearchState.Ran t (objective.map Objective.bound) st leaves
  formed : st.store.Formed
  fresh : st.context.incumbent? = none
  declared : ∀ var ∈ t.varsFrom 0, ∃ v, st.store.declaration? var = some v
  labels : ∀ var, var ∈ t.varsFrom 0 ↔ var ∈ spec.claimed ∨ var ∈ request.names.decisions
  listener : ∃ opened, st.context.listener = Solving.listener request spec opened

theorem exists_began (formed : session.store.Formed)
    (begun : begun? request spec session = some (t, st)) :
    ∃ objective leaves, Began request spec session.store t st objective leaves := by
  obtain ⟨started, opened, opens, outcome, rfl⟩ := exists_of_begun? begun
  rw [← store_of_opening opens] at formed ⊢
  obtain ⟨objective, leaves, wired, ready, ran⟩ := SearchSpec.exists_ran_of_build formed outcome
  have wired' := SearchSpec.wired_of_wireCost formed wired
  refine ⟨objective, leaves, wired, ran, wired'.formed, ?_, fun var member => ?_, fun var => ?_,
    opened, ready.listener⟩
  · show (built request spec opened).context.objective.bind Objective.incumbent = none
    rw [built, ready.objective]
    cases objective with
    | none => rfl
    | some o => exact wired'.fresh o rfl
  · exact ready.searchable.declared member
  · rw [SearchTree.mem_varsFrom_zero, SearchSpec.exists_mem_vars_of_build outcome]

namespace Began

variable {objective : Option Objective} {leaves : List Store} {u : Store}

/-- A run over a complete tree that was not late, not at its limit and without a failed report
has left nothing out. -/
theorem exhausts (began : Began request spec session.store t st objective leaves)
    (fault : (t.run st).2.context.listener.fault = none) (whole : t.isComplete = true)
    (inTime : (t.run st).1.timedOut = false)
    (limit : (t.run st).2.context.listener.limitReached = false) :
    SearchState.Exhausts t (objective.map Objective.bound) st leaves := by
  have goesOn : (t.run st).1.stopped = false := by
    by_contra stopped
    simp only [Bool.not_eq_false] at stopped
    rcases SearchState.limitReached_or_fault_of_stopped stopped with reached | failed
    · rw [limit] at reached
      cases reached
    · rw [fault] at failed
      cases failed
  exact ⟨began.ran.explored, began.ran.covers whole inTime goesOn, began.formed, began.fresh,
    began.declared⟩

/-- A run without a leaf has not reached its limit. -/
theorem limitReached_of_nil (began : Began request spec session.store t st objective []) :
    (t.run st).2.context.listener.limitReached = false := by
  obtain ⟨opened, start⟩ := began.listener
  rw [began.ran.explored.listener, start]
  rfl

/-- What the listener has reported in the end. -/
theorem reports (began : Began request spec session.store t st objective leaves) :
    st.context.listener.Reports (t.run st).2.context.listener
      (st.context.listener.solutions leaves) := by
  rw [began.ran.explored.listener]
  exact Listener.reports_acceptAll _ leaves

/-- The reporter of a solve stays there. -/
theorem exists_reporter (began : Began request spec session.store t st objective leaves) :
    ∃ reporter, (t.run st).2.context.listener.reporter = some reporter := by
  obtain ⟨opened, start⟩ := began.listener
  obtain ⟨stores, -, told⟩ := began.reports.told
  rw [start] at told
  exact ⟨_, told⟩

/-- The last solution is that of the last leaf, with the value of the cost there. -/
theorem cost_of_last (began : Began request spec session.store t st objective (leaves ++ [u]))
    {cost : VarId} (named : spec.cost = some cost) {solution : Solution}
    (last : (t.run st).2.context.listener.last = some solution) :
    solution.cost = Assignment.int? u.value? cost := by
  obtain ⟨opened, start⟩ := began.listener
  rw [began.ran.explored.listener, Listener.last_acceptAll, start] at last
  obtain rfl := Option.some.inj last
  show ((spec.cost.bind u.value?).bind _) = _
  rw [named]
  rfl

/-! ## What each status shows -/

/-- Without a solution, and with nothing left out, nothing satisfies the store. -/
theorem not_satisfiable (began : Began request spec session.store t st objective leaves)
    (formed : session.store.Formed) (ended : Ended request spec t st outcome after)
    (status : outcome.status = .unsatisfiable) : ¬ session.store.Satisfiable := by
  rw [ended.status, SearchStatus.ofResult_eq_unsatisfiable_iff, began.ran.found] at status
  obtain ⟨inTime, none, whole⟩ := status
  obtain rfl : leaves = [] := by simpa using none
  have exhausts := began.exhausts ended.fault whole inTime began.limitReached_of_nil
  rw [← (SearchSpec.extends_of_wireCost formed began.wired).satisfiable_iff]
  exact exhausts.not_satisfiable

/-- An exhausted run has left nothing out, and has come to a leaf. -/
theorem exhausts_of_status (began : Began request spec session.store t st objective leaves)
    (ended : Ended request spec t st outcome after) (status : outcome.status = .exhausted) :
    leaves ≠ [] ∧ SearchState.Exhausts t (objective.map Objective.bound) st leaves := by
  rw [ended.status, SearchStatus.ofResult_eq_exhausted_iff, began.ran.found] at status
  obtain ⟨inTime, found, -, limit, whole⟩ := status
  exact ⟨by simpa using found, began.exhausts ended.fault whole inTime limit⟩

/-- The reported solutions of an exhausted satisfaction agree with all satisfying assignments at
the labelled variables. -/
theorem exists_agreeing (began : Began request spec session.store t st objective leaves)
    (goal : spec.goal = .satisfy) (ended : Ended request spec t st outcome after)
    (status : outcome.status = .exhausted) {assignment : Assignment}
    (satisfies : session.store.Satisfies assignment) :
    ∃ solution ∈ st.context.listener.solutions leaves,
      ∀ var ∈ t.vars, solution.value? var = assignment var := by
  have exhausts := (began.exhausts_of_status ended status).2
  have wired := began.wired
  rw [SearchSpec.wireCost_satisfy goal] at wired
  obtain ⟨rfl, store⟩ := Prod.mk.inj (Except.ok.inj wired)
  rw [store] at satisfies
  obtain ⟨u, member, agrees, -⟩ := exhausts.exists_leaf satisfies nofun
  have values : u.value? ∈ (st.context.listener.solutions leaves).map Solution.value? := by
    rw [Listener.value?_solutions]
    exact List.mem_map_of_mem member
  obtain ⟨solution, listed, same⟩ := List.mem_map.1 values
  refine ⟨solution, listed, fun var labelled => ?_⟩
  rw [same]
  exact agrees var (SearchTree.mem_vars.1 labelled)

/-- What is retained are the reported solutions. -/
theorem solutions_eq (began : Began request spec session.store t st objective leaves)
    (ended : Ended request spec t st outcome after) (retain : request.retain = true) :
    outcome.solutions = st.context.listener.solutions leaves := by
  obtain ⟨opened, start⟩ := began.listener
  rw [ended.solutions, began.reports.kept, start]
  simp [Solving.listener, retain, Listener.all]

/-- The best solution of an exhausted optimization has the best cost. -/
theorem prefers (began : Began request spec session.store t st objective leaves)
    (formed : session.store.Formed) (goal : spec.goal.isOptimization = true)
    (ended : Ended request spec t st outcome after) (status : outcome.status = .exhausted)
    {cost : VarId} {solution : Solution} {best other : Int} (named : spec.cost = some cost)
    (last : outcome.best = some solution) (given : solution.cost = some best)
    (attained : session.store.Attains cost other) : spec.goal.Prefers best other := by
  obtain ⟨nonempty, exhausts⟩ := began.exhausts_of_status ended status
  obtain ⟨init, u, rfl⟩ := (List.eq_nil_or_concat' leaves).resolve_left nonempty
  obtain ⟨o, rfl⟩ := SearchSpec.exists_objective_of_wireCost goal began.wired
  obtain ⟨rank, ranks, prefers⟩ := SearchSpec.exists_ranks_of_wireCost formed named began.wired
  rw [ended.best] at last
  rw [began.cost_of_last named last] at given
  exact prefers best other (exhausts.rank_le ranks given attained)

/-- The two statuses are those of runs that were in time, below their limit, and over a complete
tree. -/
theorem uncut (began : Began request spec session.store t st objective leaves)
    (ended : Ended request spec t st outcome after)
    (status : outcome.status = .exhausted ∨ outcome.status = .unsatisfiable) :
    (t.run st).1.timedOut = false ∧ (t.run st).2.context.listener.limitReached = false ∧
      t.isComplete = true := by
  rw [ended.status, SearchStatus.ofResult_eq_exhausted_iff,
    SearchStatus.ofResult_eq_unsatisfiable_iff, began.ran.found] at status
  rcases status with ⟨inTime, -, -, limit, whole⟩ | ⟨inTime, none, whole⟩
  · exact ⟨inTime, limit, whole⟩
  · obtain rfl : leaves = [] := by simpa using none
    exact ⟨inTime, began.limitReached_of_nil, whole⟩

end Began

/-- A solve that nothing limits finds a solution if there is one. -/
theorem Unhindered.exists_exhausted (unhindered : Unhindered request spec session t)
    (formed : session.store.Formed) (satisfiable : session.store.Satisfiable) :
    ∃ outcome after, solve request spec session = .ok outcome after ∧
      outcome.status = .exhausted ∧ outcome.found = true := by
  obtain ⟨outcome, after, solved, status⟩ := unhindered.exists_settled formed
  cases found : outcome.found with
  | true => exact ⟨outcome, after, solved, by simp [status, found], found⟩
  | false =>
    have unsatisfiable : outcome.status = .unsatisfiable := by simp [status, found]
    rcases ended_or_handedOver solved with ⟨t, st, begun, ended⟩ | handed
    · obtain ⟨objective, leaves, began⟩ := exists_began formed begun
      exact absurd satisfiable (began.not_satisfiable formed ended unsatisfiable)
    · cases handed.status.symm.trans unsatisfiable

/-- What the status of a solve says about the store is true, and where it would not be known to
be true, the status does not say it. -/
structure Truthful (request : SolveRequest) (spec : SearchSpec) (session : Session)
    (outcome : SolveOutcome) (after : Session) : Prop where
  /-- An unsatisfiable store cannot be satisfied. -/
  unsatisfiable : outcome.status = .unsatisfiable → ¬ session.store.Satisfiable
  /-- Every satisfying assignment agrees with a reported solution at the labelled variables. -/
  enumerated : outcome.status = .exhausted → spec.goal = .satisfy →
    ∃ t st solutions, begun? request spec session = some (t, st) ∧
      st.context.listener.Reports (t.run st).2.context.listener solutions ∧
      (request.retain = true → outcome.solutions = solutions) ∧
      ∀ assignment, session.store.Satisfies assignment →
        ∃ solution ∈ solutions, ∀ var ∈ t.vars, solution.value? var = assignment var
  /-- No satisfying assignment has a better cost than the best solution. -/
  optimal : outcome.status = .exhausted → spec.goal.isOptimization = true →
    ∀ cost solution best, spec.cost = some cost → outcome.best = some solution →
      solution.cost = some best →
      ∀ other, session.store.Attains cost other → spec.goal.Prefers best other
  /-- A run that was late, or at its limit, or over a tree that leaves candidates out, has another
  status, and the lines that stand for the two are not among those that are written for it. -/
  cut : ∀ t st, begun? request spec session = some (t, st) →
    (t.run st).1.timedOut = true ∨ (t.run st).2.context.listener.limitReached = true ∨
      (∃ node ∈ t.nodes, node.search.exploration ≠ .complete) →
    outcome.status ≠ .exhausted ∧ outcome.status ≠ .unsatisfiable ∧
      (∃ reporter, (t.run st).2.context.listener.reporter = some reporter ∧
        after.sink.taken = reporter.sink.taken ++ (request.ending outcome).toUTF8) ∧
      "==========" ∉ Protocol.statusLines outcome.status outcome.found ∧
      "=====UNSATISFIABLE=====" ∉ Protocol.statusLines outcome.status outcome.found

/-- The status of a solve that returns is true of the store. -/
theorem truthful_of_solve (reached : session.store.Reachable)
    (solved : solve request spec session = .ok outcome after) :
    Truthful request spec session outcome after := by
  have formed := reached.formed
  rcases ended_or_handedOver solved with ⟨t, st, begun, ended⟩ | handed
  · obtain ⟨objective, leaves, began⟩ := exists_began formed begun
    refine ⟨began.not_satisfiable formed ended, fun status goal => ?_,
      fun status goal cost solution best named last given other =>
        began.prefers formed goal ended status named last given,
      fun t' st' begun' cut => ?_⟩
    · exact ⟨t, st, _, begun, began.reports, began.solutions_eq ended,
        fun assignment => began.exists_agreeing goal ended status⟩
    · obtain ⟨rfl, rfl⟩ := Prod.mk.inj (Option.some.inj (begun.symm.trans begun'))
      have neither : ¬ (outcome.status = .exhausted ∨ outcome.status = .unsatisfiable) := by
        intro status
        obtain ⟨inTime, limit, whole⟩ := began.uncut ended status
        rcases cut with late | full | ⟨node, member, partly⟩
        · cases inTime.symm.trans late
        · cases limit.symm.trans full
        · exact partly (SearchTree.isComplete_iff.1 whole node member)
      obtain ⟨exhausted, unsatisfiable⟩ := not_or.1 neither
      obtain ⟨reporter, told⟩ := began.exists_reporter
      exact ⟨exhausted, unsatisfiable, ⟨reporter, told, ended.written reporter told⟩,
        mt Protocol.mem_statusLines_exhausted_iff.1 exhausted,
        mt Protocol.mem_statusLines_unsatisfiable_iff.1 unsatisfiable⟩
  · obtain ⟨none, trivial, -⟩ := handed
    refine ⟨by simp [trivial], by simp [trivial], by simp [trivial], fun t st begun => ?_⟩
    cases none.symm.trans begun

/-- All values of an integer that has to differ from a boolean, which no node labels. -/
theorem truthful_of_solve_pair :
    ∃ (request : SolveRequest) (spec : SearchSpec) (session after : Session)
      (outcome : SolveOutcome), session.store.Reachable ∧ session.store.size = 2 ∧
      solve request spec session = .ok outcome after ∧ outcome.status = .exhausted ∧
      Truthful request spec session outcome after := by
  let s := StoreOperation.applyAll Store.empty
    [.declareInt "x" 0 2, .declareBool "b", .impose (.notEqual ⟨0⟩ ⟨1⟩)]
  let request : SolveRequest :=
    ⟨Names.empty, { SolveOptions.default with allSolutions := true }, true⟩
  let spec : SearchSpec :=
    ⟨.satisfy, none, some (.leaf .int ⟨[⟨0⟩], some .inputOrder, some .min, .complete⟩)⟩
  let session : Session := ⟨s, Sink.reliable, Clock.still, Generator.ofSeed 0, none, Journal.silent⟩
  let t := SearchTree.ofStages none
    [⟨⟨.int, [⟨0⟩], .inputOrder, .min, .complete, .ascending⟩, .explicit⟩]
  have reached : s.Reachable := Store.Reachable.empty.applyAll (by decide)
  have unhindered : Unhindered request spec session t :=
    ⟨rfl, SearchTree.complete_ofStages (by simp), rfl, rfl, rfl, rfl, rfl⟩
  have satisfiable : s.Satisfiable := by
    refine ⟨fun var => if var = ⟨0⟩ then some (.int 2) else
      if var = ⟨1⟩ then some (.bool true) else none, ?_, ?_⟩
    · rintro ⟨_ | _ | i⟩
      · exact ⟨.int 2, rfl, IntDomain.mem_interval.2 (by decide : (0 : Int) ≤ 2 ∧ (2 : Int) ≤ 2)⟩
      · exact ⟨.bool true, rfl,
          IntDomain.mem_interval.2 (by decide : (0 : Int) ≤ 1 ∧ (1 : Int) ≤ 1)⟩
      · rfl
    · intro imposed member
      obtain rfl : imposed = ⟨0, .notEqual ⟨0⟩ ⟨1⟩⟩ := List.mem_singleton.1 member
      exact Constraint.holds_notEqual_iff.2 ⟨2, 1, rfl, rfl, by decide⟩
  obtain ⟨outcome, after, solved, status, -⟩ :=
    unhindered.exists_exhausted reached.formed satisfiable
  exact ⟨request, spec, session, after, outcome, reached, rfl, solved, status,
    truthful_of_solve reached solved⟩

end Solving

end StagedSearch
