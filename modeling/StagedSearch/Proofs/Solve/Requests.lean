/-
# What a solve asks of its sink

Every step of a solve makes some requests of the sink, which do not depend on it. If the sink
grants them, the step comes to what it comes to over any other sink that does. If the sink refuses
one of them, the solve fails with the fault, and the sink is left as that request has left it. So
nothing is asked after the first fault, wherever it comes.

Searching is the one step that does not fail at once: the fault is remembered by the listener,
and it is the closing that fails with it. So the two are taken as one step.
-/

import StagedSearch.Proofs.Search.Counted
import StagedSearch.Proofs.Search.Faults
import StagedSearch.Proofs.Solve.Steps
import StagedSearch.Proofs.Tree.Refusals

namespace StagedSearch

/-! ## What is asked for -/

def SolveRequest.heading (request : SolveRequest) (spec : SearchSpec) (s : Store) :
    List SinkRequest :=
  if request.options.verbose then
    .write (Protocol.header s (Protocol.goalLine spec s)) ::
      match spec.completion request.names s with
      | .ok sets => [.write (Protocol.completion s sets)]
      | .error _ => []
  else []

def SolveRequest.finish (request : SolveRequest) (outcome : SolveOutcome) : List SinkRequest :=
  (Protocol.statusLines outcome.status outcome.found).map (fun line => .write (line ++ "\n")) ++
    ((if request.options.statistics then [.write (outcome.report.render ++ "\n")] else []) ++
      [.flush])

namespace Searched

/-- The outcome of a solve whose search has come to this, about the model that a store holds. -/
def outcome (searched : Searched) (s : Store) (searchTime : Nat) : SolveOutcome :=
  ⟨searched.status, decide (0 < searched.listener.count),
    ⟨s.size, s.constraints.length, searchTime, searched.statistics⟩, searched.listener.last,
    searched.listener.kept.toList⟩

def ended (searched : Searched) (searchTime : Nat) : SearchEvent :=
  .solveEnded searched.status searched.statistics.solutions searched.statistics.nodes
    (searchTime / 1000000)

/-- The session at the end of a solve, but for what has been written. -/
def closed (searched : Searched) (searchTime : Nat) (session : Session) : Session :=
  { session with
    clock := session.clock.read.2, journal := session.journal.note (searched.ended searchTime) }

end Searched

namespace Solving

variable {α β : Type} {session after : Session} {requests later : List SinkRequest}
  {result : EStateM.Result SolveError Session α} {a : α} {e : SolveError}

def withSink (result : EStateM.Result SolveError Session α) (sink : Sink) :
    EStateM.Result SolveError Session α :=
  match result with
  | .ok a session => .ok a { session with sink }
  | .error e session => .error e { session with sink }

/-- A step makes some requests of the sink, and comes to a result if they are granted. -/
structure Asks (step : Solving α) (session : Session) (requests : List SinkRequest)
    (result : EStateM.Result SolveError Session α) : Prop where
  granted : ∀ sink after, sink.Grants requests after →
    step { session with sink } = withSink result after
  refused : ∀ sink fault after, sink.Refuses requests fault after →
    ∃ rest, step { session with sink } = .error (.output fault) rest ∧ rest.sink = after
  inward : ∀ e rest, result = .error e rest → ¬ e.IsOutput

theorem Asks.bind {step : Solving α} {next : α → Solving β}
    {result : EStateM.Result SolveError Session β}
    (first : Asks step session requests (.ok a after)) (rest : Asks (next a) after later result) :
    Asks (step >>= next) session (requests ++ later) result where
  granted sink final all := by
    obtain ⟨between, granted, granted'⟩ := Sink.grants_append.1 all
    rw [bind_apply, first.granted sink between granted]
    exact rest.granted between final granted'
  refused sink fault final ends := by
    rw [bind_apply]
    rcases Sink.refuses_append.1 ends with refused | ⟨between, granted, refused⟩
    · obtain ⟨left, fails, same⟩ := first.refused sink fault final refused
      rw [fails]
      exact ⟨left, rfl, same⟩
    · rw [first.granted sink between granted]
      exact rest.refused between fault final refused
  inward := rest.inward

theorem Asks.andThen {step : Solving α} {second : Solving β}
    {result : EStateM.Result SolveError Session β}
    (first : Asks step session requests (.ok a after)) (rest : Asks second after later result) :
    Asks (do let _ ← step; second) session (requests ++ later) result :=
  first.bind rest

/-- What follows a step that fails asks for nothing more. -/
theorem Asks.bind_error {step : Solving α} {next : α → Solving β}
    (first : Asks step session requests (.error e after)) :
    Asks (step >>= next) session requests (.error e after) where
  granted sink final all := by
    rw [bind_apply, first.granted sink final all]
    rfl
  refused sink fault final ends := by
    obtain ⟨left, fails, same⟩ := first.refused sink fault final ends
    rw [bind_apply, fails]
    exact ⟨left, rfl, same⟩
  inward := by
    rintro _ _ ⟨⟩
    exact first.inward e after rfl

/-- A step that asks for nothing. -/
theorem asks_nothing {step : Solving α} (inward : ∀ e rest, result = .error e rest → ¬ e.IsOutput)
    (same : ∀ sink, step { session with sink } = withSink result sink) :
    Asks step session [] result where
  granted := by
    rintro sink _ ⟨⟩
    exact same sink
  refused _ _ _ refused := absurd refused Sink.not_refuses_nil
  inward := inward

theorem asks_pure (a : α) (session : Session) : Asks (pure a) session [] (.ok a session) :=
  asks_nothing (by rintro _ _ ⟨⟩) fun _ => rfl

theorem asks_note (event : SearchEvent) (session : Session) :
    Asks (note event) session []
      (.ok () { session with journal := session.journal.note event }) :=
  asks_nothing (by rintro _ _ ⟨⟩) fun _ => rfl

theorem asks_readClock (session : Session) :
    Asks readClock session []
      (.ok session.clock.read.1 { session with clock := session.clock.read.2 }) :=
  asks_nothing (by rintro _ _ ⟨⟩) fun _ => rfl

theorem asks_throw (inward : ¬ e.IsOutput) (session : Session) :
    Asks (throw e : Solving α) session [] (.error e session) :=
  asks_nothing (by rintro _ _ ⟨⟩; exact inward) fun _ => rfl

/-- A writing asks for what it comes down to. -/
theorem asks_write {writing : Writing Unit} (same : writing = SinkRequest.performAll requests)
    (session : Session) : Asks (write writing) session requests (.ok () session) where
  granted sink after granted := by
    have ran : writing sink = .ok () after := same ▸ granted
    simp only [write, ran, withSink]
  refused sink fault after refused := by
    have ran : writing sink = .error fault after := same ▸ refused
    exact ⟨{ session with sink := after }, by simp only [write, ran], rfl⟩
  inward := by rintro _ _ ⟨⟩

/-- A step asks for what another one asks for, if it does the same, whatever the sink. -/
theorem Asks.of_eq {step other : Solving α} (asks : Asks other session requests result)
    (same : ∀ sink, step { session with sink } = other { session with sink }) :
    Asks step session requests result where
  granted sink after all := (same sink).trans (asks.granted sink after all)
  refused sink fault after ends := same sink ▸ asks.refused sink fault after ends
  inward := asks.inward

/-- A step streams if there are requests that it makes, whatever it comes to. -/
def Streams (step : Solving α) (session : Session) : Prop :=
  ∃ requests result, Asks step session requests result

theorem Asks.streams {step : Solving α} (asks : Asks step session requests result) :
    Streams step session :=
  ⟨requests, result, asks⟩

/-- Steps that follow one another stream. A step that fails makes the last requests. -/
theorem Streams.bind {step : Solving α} {next : α → Solving β} (first : Streams step session)
    (rest : ∀ a after, Streams (next a) after) : Streams (step >>= next) session := by
  obtain ⟨requests, result, first⟩ := first
  cases result with
  | ok a after =>
    obtain ⟨later, result, asks⟩ := rest a after
    exact (first.bind asks).streams
  | error e after => exact first.bind_error.streams

/-- A step streams if it does what another one does, whatever the sink. -/
theorem Streams.of_eq {step other : Solving α} (streams : Streams other session)
    (same : ∀ sink, step { session with sink } = other { session with sink }) :
    Streams step session := by
  obtain ⟨requests, result, asks⟩ := streams
  exact (asks.of_eq same).streams

/-! ## Opening and closing -/

theorem asks_perform (request : SinkRequest) (session : Session) :
    Asks (write request.perform) session [request] (.ok () session) :=
  asks_write (SinkRequest.performAll_singleton request).symm session

theorem asks_announce {names : Names} {spec : SearchSpec} {sets : List (VarKind × List VarId)}
    (completed : spec.completion names session.store = .ok sets) :
    Asks (announce names spec) session
      [.write (Protocol.header session.store (Protocol.goalLine spec session.store)),
        .write (Protocol.completion session.store sets)] (.ok () session) := by
  refine ((asks_perform (.write _) session).andThen (asks_perform (.write _) session)).of_eq
    fun sink => ?_
  show (write _ >>= fun _ => _) _ = _
  rw [completed]
  rfl

theorem asks_announce_of_error {names : Names} {spec : SearchSpec}
    (failed : spec.completion names session.store = .error e) :
    Asks (announce names spec) session
      [.write (Protocol.header session.store (Protocol.goalLine spec session.store))]
      (.error e session) := by
  have inward := SolveError.inward_completion spec names session.store e failed
  refine ((asks_perform (.write _) session).andThen (asks_throw inward session)).of_eq
    fun sink => ?_
  show (write _ >>= fun _ => _) _ = _
  rw [failed]
  rfl

def began (request : SolveRequest) (spec : SearchSpec) (s : Store) : SearchEvent :=
  .solveStarted s.size s.constraints.length spec.goal (searchesAll request.options spec)

/-- The session in which a solve begins to search. Only its sink depends on what is written
before. -/
def opened (request : SolveRequest) (spec : SearchSpec) (session : Session) : Session :=
  { session with
    clock := session.clock.read.2
    journal := session.journal.note (began request spec session.store) }

/-- The session after the first event of a solve. -/
def noted (request : SolveRequest) (spec : SearchSpec) (session : Session) : Session :=
  { session with journal := session.journal.note (began request spec session.store) }

/-- What hints leave open can be listed, or need not be, unless one of its variables does not
exist. -/
theorem listed_or_unlisted (request : SolveRequest) (spec : SearchSpec) (s : Store) :
    (request.options.verbose = true → ∃ sets, spec.completion request.names s = .ok sets) ∨
      request.options.verbose = true ∧ ∃ e, spec.completion request.names s = .error e := by
  cases request.options.verbose <;> cases spec.completion request.names s <;> simp

theorem asks_opening {request : SolveRequest} {spec : SearchSpec}
    (listed : request.options.verbose = true →
      ∃ sets, spec.completion request.names session.store = .ok sets) :
    Asks (opening request spec) session (request.heading spec session.store)
      (.ok session.clock.read.1 (opened request spec session)) := by
  have note := asks_note (began request spec session.store) session
  unfold SolveRequest.heading
  cases verbose : request.options.verbose with
  | true =>
    obtain ⟨sets, completed⟩ := listed verbose
    have told : Asks (announce request.names spec) (noted request spec session) _ _ :=
      asks_announce completed
    rw [if_pos rfl, completed]
    refine (note.andThen (told.andThen (asks_readClock _))).of_eq fun sink => ?_
    unfold opening
    rw [verbose]
    rfl
  | false =>
    rw [if_neg Bool.false_ne_true]
    refine (note.andThen (asks_readClock _)).of_eq fun sink => ?_
    unfold opening
    rw [verbose]
    rfl

/-- An opening that lists what hints leave open, where one of these variables does not exist. -/
theorem asks_opening_of_error {request : SolveRequest} {spec : SearchSpec}
    (verbose : request.options.verbose = true)
    (failed : spec.completion request.names session.store = .error e) :
    Asks (opening request spec) session (request.heading spec session.store)
      (.error e (noted request spec session)) := by
  have note := asks_note (began request spec session.store) session
  have ends : Asks (announce request.names spec) (noted request spec session) _ _ :=
    asks_announce_of_error failed
  have told : Asks (announce request.names spec >>= fun _ => readClock)
      (noted request spec session) _ _ := ends.bind_error
  unfold SolveRequest.heading
  rw [verbose, if_pos rfl, failed]
  refine (note.andThen told).of_eq fun sink => ?_
  unfold opening
  rw [verbose]
  rfl

theorem streams_opening (request : SolveRequest) (spec : SearchSpec) (session : Session) :
    Streams (opening request spec) session := by
  rcases listed_or_unlisted request spec session.store with listed | ⟨verbose, e, failed⟩
  · exact (asks_opening listed).streams
  · exact (asks_opening_of_error verbose failed).streams

theorem asks_finishing (request : SolveRequest) (s : Store) (searchTime : Nat)
    (searched : Searched) (session : Session) :
    Asks (finishing request s searchTime searched) session
      (request.finish (searched.outcome s searchTime))
      (.ok (searched.outcome s searchTime)
        { session with journal := session.journal.note (searched.ended searchTime) }) := by
  have ending : Asks (do write Sink.flush; note (searched.ended searchTime); return _) session
      [.flush] (.ok (searched.outcome s searchTime) _) :=
    (asks_perform .flush session).andThen ((asks_note _ session).andThen (asks_pure _ _))
  have lines := asks_write (Protocol.writeLines_eq
    (Protocol.statusLines searched.status (decide (0 < searched.listener.count)))) session
  unfold SolveRequest.finish
  refine lines.bind ?_
  dsimp only
  cases request.options.statistics with
  | true => exact (asks_perform (.write _) session).andThen ending
  | false => exact ending

/-- A closing after which no report has failed. -/
theorem asks_closing (request : SolveRequest) (s : Store) (started : Nat) {searched : Searched}
    (silent : searched.listener.fault = none) (session : Session) :
    Asks (closing request s started searched) session
      (request.finish (searched.outcome s (session.clock.read.1 - started)))
      (.ok (searched.outcome s (session.clock.read.1 - started))
        (searched.closed (session.clock.read.1 - started) session)) := by
  refine (asks_readClock session).bind ?_
  simp only [silent]
  exact asks_finishing request s _ searched _

/-- A closing after a report has failed. -/
theorem closing_of_fault (request : SolveRequest) (s : Store) (started : Nat)
    {searched : Searched} {fault : OutputFault} (failed : searched.listener.fault = some fault)
    (session : Session) :
    closing request s started searched session =
      .error (.output fault) { session with clock := session.clock.read.2 } := by
  have read : readClock session =
      .ok session.clock.read.1 { session with clock := session.clock.read.2 } := rfl
  unfold closing
  rw [bind_apply, read]
  simp only [failed]
  rfl

end Solving

/-! ## Building -/

namespace SearchSpec

variable {ρ : Type} [Reporter ρ] {spec : SearchSpec} {names : Names} {s : Store}
  {context : Context ρ}

/-- Unless there is nothing to decide, building does nothing with the listener. -/
theorem build_listener (decides : (spec.build names s context).outcome ≠ .ok .trivial)
    (l : Listener ρ) :
    spec.build names s { context with listener := l } =
      { spec.build names s context with
        context := { (spec.build names s context).context with listener := l } } := by
  unfold build at decides ⊢
  cases compiled : spec.stages names s context.seeds with
  | error e seeds => rfl
  | ok stages seeds =>
    rw [compiled] at decides
    simp only at decides ⊢
    split
    · rename_i empty
      rw [if_pos empty] at decides
      exact absurd rfl decides
    · unfold chain
      cases spec.wireCost s <;> rfl

/-- Where there is nothing to decide, the listener is handed the store. -/
theorem exists_build_eq_acceptTrivially
    (trivial : (spec.build names s context).outcome = .ok .trivial) :
    ∃ seeded : Context ρ, ∀ l : Listener ρ,
      spec.build names s { context with listener := l } =
        acceptTrivially s { seeded with listener := l } := by
  obtain ⟨seeds, compiled, -⟩ := exists_of_build_trivial trivial
  refine ⟨{ context with seeds }, fun l => ?_⟩
  unfold build
  simp only [compiled]
  rfl

/-- Listeners that number alike are handed the store in the same way. -/
theorem acceptTrivially_listener {l other : Listener ρ}
    (same : l.nextSolution s = other.nextSolution s) :
    acceptTrivially s { context with listener := l } =
      { acceptTrivially s { context with listener := other } with
        context :=
          { (acceptTrivially s { context with listener := other }).context with
            listener := (l.accept s).2 } } := by
  simp only [acceptTrivially, Context.accept, Context.note, same]

end SearchSpec

namespace Solving

variable {request : SolveRequest} {spec : SearchSpec} {session : Session}

/-! ## Searching -/

/-- The stores that a search hands over, in order: those that its run accepts, or the store as it
is where there is nothing to decide. -/
inductive Accepts (request : SolveRequest) (spec : SearchSpec) (session : Session) :
    List Store → Prop
  | trivially (outcome : (built request spec session).outcome = .ok .trivial) :
      Accepts request spec session [session.store]
  | searched {t : SearchTree} {steps : List (SearchStep ProtocolReporter)}
      (outcome : (built request spec session).outcome = .ok (.tree t))
      (follows : t.Follows ((built request spec session).start t) steps) :
      Accepts request spec session (SearchStep.accepted steps)

/-- What a search comes to when its requests are granted, and what is left when one of them is
refused. It does not fail of itself then, but the listener has the fault. What is asked for are
the reports of some stores, whatever the sink. -/
structure Searches (request : SolveRequest) (spec : SearchSpec) (session : Session)
    (stores : List Store) (searched : Searched) (found : Session) : Prop where
  silent : searched.listener.fault = none
  listener : ∃ reporter : Option ProtocolReporter, searched.listener =
    ({ listener request spec session with reporter } : Listener ProtocolReporter).acceptAll stores
  channel : found.channel = searched.listener.channel
  counted : searched.statistics.solutions = searched.listener.count
  granted : ∀ sink after, sink.Grants (stores.flatMap (Protocol.solutionRequests request.names))
    after → Accepts request spec { session with sink } stores ∧
      search request spec { session with sink } =
        .ok { searched with listener := searched.listener.reportTo request.names after }
          { found with sink := after }
  refused : ∀ sink fault after,
    sink.Refuses (stores.flatMap (Protocol.solutionRequests request.names)) fault after →
      ∃ searched' found', search request spec { session with sink } = .ok searched' found' ∧
        searched'.listener.fault = some fault ∧ found'.sink = after

theorem sink_after {context : Context ProtocolReporter} {names : Names} {sink : Sink}
    (told : context.listener.reporter = some ⟨names, sink⟩) (s : Store) :
    (session.after s context).sink = sink := by
  simp only [Session.after, told]

theorem built_of_ne_trivial (decides : (built request spec session).outcome ≠ .ok .trivial)
    (sink : Sink) : built request spec { session with sink } =
      { built request spec session with
        context :=
          { (built request spec session).context with
            listener := (listener request spec session).reportTo request.names sink } } :=
  SearchSpec.build_listener decides ((listener request spec session).reportTo request.names sink)

/-- A search over a tree asks for what its run asks for over an endless sink. -/
theorem exists_searches_of_tree {t : SearchTree}
    (outcome : (built request spec session).outcome = .ok (.tree t)) :
    ∃ stores searched found, Searches request spec session stores searched found := by
  have made := built_of_ne_trivial (show (built request spec session).outcome ≠ .ok .trivial by
    rw [outcome]; nofun)
  have outcome' (sink : Sink) :
      (built request spec { session with sink }).outcome = .ok (.tree t) := by
    rw [made]
    exact outcome
  let start : SearchState ProtocolReporter :=
    (built request spec session).start t |>.adjust fun _ => listener request spec session
  have begins (sink : Sink) : (built request spec { session with sink }).start t =
      start.adjust (Listener.reportTo request.names sink) := by
    rw [made]
    rfl
  have silent : start.context.listener.fault = none := rfl
  have endless : Sink.reliable.Endless := ⟨rfl, rfl⟩
  let reliable := start.adjust (Listener.reportTo request.names Sink.reliable)
  obtain ⟨whole, follows⟩ := t.exists_follows reliable
  refine ⟨SearchStep.accepted whole,
    ⟨SearchStatus.ofResult (t.run reliable).1 (searchesAll request.options spec)
        (t.run reliable).2.context.listener.limitReached t.isComplete,
      SearchStatistics.aggregate t (t.run reliable).2.progress,
      (t.run reliable).2.context.listener⟩,
    session.after (t.run reliable).2.store (t.run reliable).2.context, ?_, ⟨_, follows.listener⟩,
    rfl, ?_, ?_, ?_⟩
  · obtain ⟨after, granted, -⟩ :=
      endless.exists_grants (SearchTree.requestsOf request.names whole)
    have reporting : reliable.context.listener.Reporting request.names Sink.reliable := ⟨rfl, rfl⟩
    have told := reporting.acceptAll granted
    rw [← follows.listener] at told
    exact told.fault
  · exact SearchSpec.solutions_aggregate_of_build outcome rfl rfl
  · intro sink after granted
    obtain ⟨⟨steps, follows', same⟩, run⟩ := follows.exists_of_grants silent endless granted
    rw [← begins] at follows'
    rw [search_of_tree (outcome' sink) (begins sink), run, ← same]
    exact ⟨.searched (outcome' sink) follows', rfl⟩
  · intro sink fault after refused
    have broken := follows.run_of_refuses silent endless refused
    exact ⟨_, _, search_of_tree (outcome' sink) (begins sink), broken.fault,
      sink_after broken.reporter _⟩

/-- Where there is nothing to decide, a search asks for the report of the one solution. -/
theorem exists_searches_of_trivial
    (trivial : (built request spec session).outcome = .ok .trivial) :
    ∃ stores searched found, Searches request spec session stores searched found := by
  obtain ⟨seeded, accepts⟩ := SearchSpec.exists_build_eq_acceptTrivially trivial
  have made (sink : Sink) : built request spec { session with sink } =
      SearchSpec.acceptTrivially session.store
        { seeded with listener := (listener request spec session).reportTo request.names sink } :=
    accepts ((listener request spec session).reportTo request.names sink)
  have reporting (sink : Sink) : ((listener request spec session).reportTo request.names
      sink).Reporting request.names sink := ⟨rfl, rfl⟩
  have trivial' (sink : Sink) :
      (built request spec { session with sink }).outcome = .ok .trivial := by
    rw [made]
    rfl
  let silenced := SearchSpec.acceptTrivially session.store
    { seeded with listener := (listener request spec session).silenced }
  have handed (sink : Sink) : built request spec { session with sink } =
      { silenced with
        context :=
          { silenced.context with
            listener := (((listener request spec session).reportTo request.names sink).accept
              session.store).2 } } :=
    (made sink).trans (SearchSpec.acceptTrivially_listener rfl)
  refine ⟨[session.store],
    ⟨.trivial, SearchStatistics.ofTrivial, silenced.context.listener⟩,
    session.after silenced.store silenced.context, rfl, ⟨none, rfl⟩, rfl, rfl, ?_, ?_⟩
  · intro sink after granted
    rw [List.flatMap_singleton] at granted
    rw [search_of_trivial (trivial' sink), handed, Listener.accept_reportTo granted]
    exact ⟨.trivially (trivial' sink), rfl⟩
  · intro sink fault after refused
    rw [List.flatMap_singleton] at refused
    have broken := ((reporting sink).accept_of_refused refused).2
    refine ⟨_, _, search_of_trivial (trivial' sink), ?_, ?_⟩
    · rw [made]
      exact broken.fault
    · rw [made]
      exact sink_after broken.reporter _

theorem exists_searches {what : BuildOutcome}
    (outcome : (built request spec session).outcome = .ok what) :
    ∃ stores searched found, Searches request spec session stores searched found := by
  cases what with
  | tree t => exact exists_searches_of_tree outcome
  | trivial => exact exists_searches_of_trivial outcome

/-- A search and its closing, which reports the end if no report of the search has failed. -/
theorem Searches.asks_closing {stores : List Store} {searched : Searched} {found : Session}
    (searches : Searches request spec session stores searched found) (s : Store)
    (started : Nat) :
    Asks (search request spec >>= closing request s started) session
      (stores.flatMap (Protocol.solutionRequests request.names) ++
        request.finish (searched.outcome s (found.clock.read.1 - started)))
      (.ok (searched.outcome s (found.clock.read.1 - started))
        (searched.closed (found.clock.read.1 - started) found)) := by
  have closes := Solving.asks_closing request s started searches.silent found
  refine ⟨fun sink final granted => ?_, fun sink fault final refused => ?_, closes.inward⟩
  · obtain ⟨between, first, second⟩ := Sink.grants_append.1 granted
    rw [bind_apply, (searches.granted sink between first).2]
    exact closes.granted between final second
  · rcases Sink.refuses_append.1 refused with first | ⟨between, first, second⟩
    · obtain ⟨searched', found', searches', failed, left⟩ :=
        searches.refused sink fault final first
      rw [bind_apply, searches']
      exact ⟨_, closing_of_fault request s started failed found', left⟩
    · rw [bind_apply, (searches.granted sink between first).2]
      exact closes.refused between fault final second

/-- A search that cannot be built asks for nothing. -/
theorem exists_asks_search_of_error {e : SolveError}
    (outcome : (built request spec session).outcome = .error e) :
    ∃ rest, Asks (search request spec) session [] (.error e rest) := by
  have made := built_of_ne_trivial (show (built request spec session).outcome ≠ .ok .trivial by
    rw [outcome]; nofun)
  have inward := SolveError.inward_build spec request.names session.store
    (context request spec session) e outcome
  refine ⟨session.after (built request spec session).store
    { (built request spec session).context with listener := listener request spec session },
    asks_nothing (by rintro _ _ ⟨⟩; exact inward) fun sink => ?_⟩
  have outcome' : (built request spec { session with sink }).outcome = .error e := by
    rw [made]
    exact outcome
  rw [search_of_error outcome', made]
  rfl

/-- A search and its closing, which fails with the fault of the search if there is one. -/
theorem streams_searching (request : SolveRequest) (spec : SearchSpec) (s : Store)
    (started : Nat) (session : Session) :
    Streams (search request spec >>= closing request s started) session := by
  cases outcome : (built request spec session).outcome with
  | error e =>
    obtain ⟨rest, asks⟩ := exists_asks_search_of_error outcome
    exact asks.bind_error.streams
  | ok what =>
    obtain ⟨stores, searched, found, searches⟩ := exists_searches outcome
    exact (searches.asks_closing s started).streams

/-- What a solve asks of its sink does not depend on the sink. -/
theorem streams_solve (request : SolveRequest) (spec : SearchSpec) (session : Session) :
    Streams (solve request spec) session := by
  have streams : Streams (do
      let started ← opening request spec
      let searched ← search request spec
      closing request session.store started searched) session :=
    (streams_opening request spec session).bind fun started opened =>
      streams_searching request spec session.store started opened
  exact streams.of_eq fun sink => solve_eq request spec { session with sink }

end Solving

end StagedSearch
