/-
# Solves that return

Over a sink that takes everything nothing that is written can fail. So a solve returns there as
soon as its search can be built, and whether it can does not depend on the sink, the clock or the
listener. If nothing limits the search and its tree leaves nothing out, the solve also settles
the matter: it ends exhausted if it has found something, and unsatisfiable otherwise.
-/

import StagedSearch.Proofs.Solve.Ending

namespace StagedSearch

/-! ## Reports to a sink that takes everything -/

/-- A report to a sink that takes everything does not fail, and the next one will not either. -/
theorem ProtocolReporter.report_of_endless {reporter : ProtocolReporter}
    (endless : reporter.sink.Endless) (s : Store) (solution : Solution) :
    (Reporter.report reporter s solution).1 = none ∧
      (Reporter.report reporter s solution).2.sink.Endless := by
  obtain ⟨after, written, endless'⟩ :=
    Protocol.suitsEndless_writeSolution reporter.names s reporter.sink endless
  have reported : Reporter.report reporter s solution =
      (none, { reporter with sink := after }) := by
    simp only [Reporter.report, written]
  rw [reported]
  exact ⟨rfl, endless'⟩

theorem ProtocolReporter.neverFails {reporter : ProtocolReporter}
    (endless : reporter.sink.Endless) : Reporter.NeverFails reporter :=
  ⟨fun r => r.sink.Endless, endless, fun _ here s solution => report_of_endless here s solution⟩

namespace Listener

variable {l : Listener ProtocolReporter}

/-- A listener that reports to a sink which takes everything, and has not seen a report fail. -/
structure Unfailing (l : Listener ProtocolReporter) : Prop where
  fault : l.fault = none
  sink : ∀ reporter, l.reporter = some reporter → reporter.sink.Endless

theorem Unfailing.accept (unfailing : l.Unfailing) (s : Store) : (l.accept s).2.Unfailing := by
  obtain ⟨fault, sink⟩ := unfailing
  unfold Listener.accept
  cases told : l.reporter with
  | none =>
    simp only [tell]
    refine ⟨fault, fun r equal => ?_⟩
    cases equal
  | some r =>
    obtain ⟨silent, endless⟩ :=
      ProtocolReporter.report_of_endless (sink r told) s (l.nextSolution s)
    simp only [tell, silent, fault]
    refine ⟨rfl, fun r' equal => ?_⟩
    cases equal
    exact endless

theorem Unfailing.acceptAll (unfailing : l.Unfailing) (leaves : List Store) :
    (l.acceptAll leaves).Unfailing := by
  induction leaves generalizing l with
  | nil => exact unfailing
  | cons u rest ih => exact ih (unfailing.accept u)

/-- Without a limit none is reached. -/
theorem limitReached_acceptAll (unlimited : l.limit = none) (before : l.limitReached = false)
    (leaves : List Store) : (l.acceptAll leaves).limitReached = false := by
  induction leaves generalizing l with
  | nil => exact before
  | cons u rest ih =>
    have kept : (l.accept u).2.limit = none ∧ (l.accept u).2.limitReached = false := by
      unfold accept tell
      cases l.reporter <;> simp [unlimited]
    exact ih kept.1 kept.2

/-- Without a limit it never asks to stop. -/
theorem Unfailing.endless (unfailing : l.Unfailing) (unlimited : l.limit = none) : l.Endless :=
  ⟨unlimited, unfailing.fault, fun r told => ProtocolReporter.neverFails (unfailing.sink r told)⟩

end Listener

namespace SearchSpec

variable {ρ : Type} [Reporter ρ] {spec : SearchSpec} {names : Names} {s : Store}
  {context : Context ρ}

/-- Whether a search can be built is settled by the directive, the names, the store and the
seeds. -/
theorem outcome_build_congr {context' : Context ρ} (seeds : context.seeds = context'.seeds) :
    (spec.build names s context).outcome = (spec.build names s context').outcome := by
  unfold build
  rw [seeds]
  cases spec.stages names s context'.seeds with
  | error e later => rfl
  | ok stages later =>
    simp only
    split
    · rfl
    · unfold chain
      cases spec.wireCost s <;> rfl

/-- A search that is built has been compiled. -/
theorem exists_stages_of_build {what : BuildOutcome}
    (outcome : (spec.build names s context).outcome = .ok what) :
    ∃ stages later, spec.stages names s context.seeds = .ok stages later := by
  cases what with
  | tree t =>
    obtain ⟨stages, later, -, compiled, -⟩ := exists_of_build outcome
    exact ⟨stages, later, compiled⟩
  | trivial =>
    obtain ⟨later, compiled, -⟩ := exists_of_build_trivial outcome
    exact ⟨[], later, compiled⟩

end SearchSpec

namespace Solving

variable {α β : Type} {request : SolveRequest} {spec : SearchSpec} {session : Session}
  {searched : Searched} {what : BuildOutcome} {t : SearchTree}

/-! ## Steps that return -/

/-- A step returns from a session, and the sink still takes everything then. -/
def ReturnsFrom (step : Solving α) (session : Session) : Prop :=
  ∃ a after, step session = .ok a after ∧ after.sink.Endless

theorem ReturnsFrom.bind {step : Solving α} {next : α → Solving β}
    (first : ReturnsFrom step session) (rest : ∀ a after, step session = .ok a after →
      after.sink.Endless → ReturnsFrom (next a) after) :
    ReturnsFrom (step >>= next) session := by
  obtain ⟨a, between, run, endless⟩ := first
  obtain ⟨b, after, run', endless'⟩ := rest a between run endless
  exact ⟨b, after, bind_eq_ok.2 ⟨a, between, run, run'⟩, endless'⟩

theorem returnsFrom_write {writing : Writing Unit} (suits : writing.SuitsEndless)
    (endless : session.sink.Endless) : ReturnsFrom (write writing) session := by
  obtain ⟨sink, written, endless'⟩ := suits session.sink endless
  refine ⟨(), { session with sink }, ?_, endless'⟩
  unfold write
  rw [written]

theorem returnsFrom_opening (endless : session.sink.Endless)
    {sets : List (VarKind × List VarId)}
    (completed : spec.completion request.names session.store = .ok sets) :
    ReturnsFrom (opening request spec) session := by
  refine ReturnsFrom.bind ⟨session, session, rfl, endless⟩ fun _ opened get endless => ?_
  cases get
  refine ReturnsFrom.bind ⟨(), _, rfl, endless⟩ fun _ noted note endless => ?_
  cases note
  dsimp only
  split
  · refine ReturnsFrom.bind ?_ fun _ announced _ endless => ⟨_, _, rfl, endless⟩
    refine ReturnsFrom.bind ⟨_, _, rfl, endless⟩ fun _ read get endless => ?_
    cases get
    refine (returnsFrom_write (Sink.suitsEndless_write _) endless).bind
      fun _ written _ endless => ?_
    simp only [completed]
    exact returnsFrom_write (Sink.suitsEndless_write _) endless
  · exact ⟨_, _, rfl, endless⟩

/-- If a search can be built, then what completes it can be listed at the start. -/
theorem returnsFrom_opening_of_build (endless : session.sink.Endless)
    (outcome : (built request spec session).outcome = .ok what) :
    ReturnsFrom (opening request spec) session := by
  obtain ⟨stages, later, compiled⟩ := SearchSpec.exists_stages_of_build outcome
  obtain ⟨-, -, sets, -, -, completed, -⟩ := SearchSpec.exists_of_stages compiled
  exact returnsFrom_opening endless completed

theorem returnsFrom_closing (silent : searched.listener.fault = none)
    (endless : session.sink.Endless) (s : Store) (started : Nat) :
    ReturnsFrom (closing request s started searched) session := by
  refine ReturnsFrom.bind ⟨_, _, rfl, endless⟩ fun time timed read endless => ?_
  simp only [silent]
  refine (returnsFrom_write (Protocol.suitsEndless_writeLines _) endless).bind
    fun _ told _ endless => ?_
  have ending (event : SearchEvent) (outcome : SolveOutcome) (session : Session)
      (endless : session.sink.Endless) : ReturnsFrom
        (do write Sink.flush; note event; return outcome) session :=
    (returnsFrom_write Sink.suitsEndless_flush endless).bind fun _ _ _ endless =>
      ⟨_, _, rfl, endless⟩
  dsimp only
  split
  · exact (returnsFrom_write (Protocol.suitsEndless_writeLine _) endless).bind
      fun _ reported _ endless => ending _ _ reported endless
  · exact ending _ _ told endless

/-! ## Searching -/

theorem unfailing_listener (endless : session.sink.Endless) :
    (listener request spec session).Unfailing := by
  refine ⟨rfl, fun reporter told => ?_⟩
  cases told
  exact endless

theorem endless_after {context : Context ProtocolReporter} {s : Store}
    (unfailing : context.listener.Unfailing) (endless : session.sink.Endless) :
    (session.after s context).sink.Endless := by
  unfold Session.after
  cases told : context.listener.reporter with
  | none => exact endless
  | some reporter => exact unfailing.sink reporter told

/-- Whether a search can be built does not depend on what opening may change. -/
theorem outcome_built_of_opening {started : Nat} {opened : Session}
    (opens : opening request spec session = .ok started opened) :
    (built request spec opened).outcome = (built request spec session).outcome := by
  unfold built
  rw [store_of_opening opens]
  exact SearchSpec.outcome_build_congr (seeds_of_opening opens)

theorem limit_listener (all : searchesAll request.options spec = true)
    (unlimited : request.options.limit? = none) :
    (listener request spec session).limit = none := by
  unfold listener
  simp only [all, if_true]
  exact unlimited

/-- A search that can be built is carried out without a report that fails. -/
theorem exists_search_eq_ok (formed : session.store.Formed) (endless : session.sink.Endless)
    (outcome : (built request spec session).outcome = .ok what) :
    ∃ searched after, search request spec session = .ok searched after ∧
      searched.listener.fault = none ∧ after.sink.Endless := by
  have start : (context request spec session).listener.Unfailing := unfailing_listener endless
  cases what with
  | trivial =>
    obtain ⟨-, -, accepted⟩ := SearchSpec.exists_of_build_trivial outcome
    have unfailing : (built request spec session).context.listener.Unfailing :=
      accepted.symm ▸ start.accept session.store
    exact ⟨_, _, search_of_trivial outcome, unfailing.fault, endless_after unfailing endless⟩
  | tree t =>
    obtain ⟨objective, leaves, -, ready, ran⟩ := SearchSpec.exists_ran_of_build formed outcome
    have unfailing := start.acceptAll leaves
    rw [← ready.listener, ← ran.explored.listener] at unfailing
    exact ⟨_, _, search_of_tree outcome rfl, unfailing.fault, endless_after unfailing endless⟩

/-! ## Solving -/

/-- A solve over a sink that takes everything returns, if its search can be built. -/
theorem exists_solve_eq_ok (formed : session.store.Formed) (endless : session.sink.Endless)
    (outcome : (built request spec session).outcome = .ok what) :
    ∃ outcome after, solve request spec session = .ok outcome after := by
  obtain ⟨started, opened, opens, endless⟩ := returnsFrom_opening_of_build endless outcome
  obtain ⟨searched, found, searches, silent, endless⟩ :=
    exists_search_eq_ok ((store_of_opening opens).symm ▸ formed) endless
      ((outcome_built_of_opening opens).trans outcome)
  obtain ⟨result, after, closes, -⟩ : ReturnsFrom
      (closing request session.store started searched) found :=
    returnsFrom_closing silent endless session.store started
  refine ⟨result, after, ?_⟩
  rw [solve_eq]
  exact bind_eq_ok.2 ⟨started, opened, opens, bind_eq_ok.2 ⟨searched, found, searches, closes⟩⟩

/-- A run that neither the options nor the tree cut short ends exhausted or unsatisfiable. -/
theorem status_of_thorough {opened : Session} {st : SearchState ProtocolReporter}
    {result : SolveOutcome} {after : Session} (formed : opened.store.Formed)
    (thorough : spec.Thorough request.names opened.store (context request spec opened) t)
    (begins : (built request spec opened).start t = st)
    (all : searchesAll request.options spec = true) (ended : Ended request spec t st result after) :
    result.status = if result.found then .exhausted else .unsatisfiable := by
  subst begins
  obtain ⟨objective, leaves, -, ready, completes⟩ :=
    SearchSpec.exists_completes_of_build formed thorough
  have listener : (t.run ((built request spec opened).start t)).2.context.listener =
      (listener request spec opened).acceptAll leaves :=
    completes.explored.listener.trans (congrArg (·.acceptAll leaves) ready.listener)
  have count : result.found = !leaves.isEmpty := by
    rw [ended.found, listener, (Listener.reports_acceptAll _ leaves).count,
      Listener.length_solutions]
    cases leaves <;> simp [Solving.listener, Listener.all]
  have below : (t.run ((built request spec opened).start t)).2.context.listener.limitReached =
      false := by
    rw [listener]
    exact Listener.limitReached_acceptAll thorough.endless.limit rfl leaves
  have whole : t.isComplete = true := SearchTree.isComplete_iff.2 thorough.complete
  have result' : (t.run ((built request spec opened).start t)).1 = _ := completes.result
  rw [ended.status, result', count, all, below, whole]
  cases leaves <;> rfl

/-- A solve that nothing limits: its tree leaves nothing out, it is to find all solutions, however
many and however long it takes, and the sink takes everything. -/
structure Unhindered (request : SolveRequest) (spec : SearchSpec) (session : Session)
    (t : SearchTree) : Prop where
  outcome : (built request spec session).outcome = .ok (.tree t)
  whole : ∀ node ∈ t.nodes, node.search.exploration = .complete
  all : searchesAll request.options spec = true
  unlimited : request.options.limit? = none
  inTime : request.options.timeLimit? = none
  endless : session.sink.Endless

/-- The run of such a solve begins as a thorough one. -/
theorem Unhindered.thorough (unhindered : Unhindered request spec session t) {started : Nat}
    {opened : Session} (opens : opening request spec session = .ok started opened) :
    spec.Thorough request.names opened.store (context request spec opened) t := by
  obtain ⟨outcome, whole, all, unlimited, inTime, endless⟩ := unhindered
  have endless' : opened.sink.Endless := by
    obtain ⟨_, _, same, endless'⟩ := returnsFrom_opening_of_build endless outcome
    cases opens.symm.trans same
    exact endless'
  exact ⟨(outcome_built_of_opening opens).trans outcome, whole, inTime,
    (unfailing_listener endless').endless (limit_listener all unlimited)⟩

/-- A solve that nothing limits settles the matter. -/
theorem Unhindered.exists_settled (unhindered : Unhindered request spec session t)
    (formed : session.store.Formed) :
    ∃ outcome after, solve request spec session = .ok outcome after ∧
      outcome.status = if outcome.found then .exhausted else .unsatisfiable := by
  obtain ⟨outcome, after, solved⟩ :=
    exists_solve_eq_ok formed unhindered.endless unhindered.outcome
  refine ⟨outcome, after, solved, ?_⟩
  rcases ended_or_handedOver solved with ⟨t', st, begun, ended⟩ | handed
  · obtain ⟨started, opened, opens, made, begins⟩ := exists_of_begun? begun
    have thorough := unhindered.thorough opens
    obtain rfl : t' = t := BuildOutcome.tree.inj (Except.ok.inj (made.symm.trans thorough.outcome))
    exact status_of_thorough ((store_of_opening opens).symm ▸ formed) thorough begins
      unhindered.all ended
  · obtain ⟨started, opened, opens, trivial⟩ := handed.trivial
    rw [outcome_built_of_opening opens, unhindered.outcome] at trivial
    cases trivial

end Solving

end StagedSearch
