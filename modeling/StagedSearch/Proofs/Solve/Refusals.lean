/-
# How a solve is refused

Where building fails, so does the solve, before it has searched: the store and the channel are as
they were, and no store has been handed over. What it has asked of its sink until then is the
heading, the announcement of the model, which is empty unless it is wanted.

An announced solve lists what hints leave open before anything is compiled. So it has written
when it fails, and where a variable of that list does not exist it fails with this, even if a leaf
could not be compiled either, which is what it fails with otherwise. The options have no other say
in it.
-/

import StagedSearch.Proofs.Solve.Channels

namespace StagedSearch

/-- A completion that fails keeps a search from being built. Where its leaves compile, nothing
else does. -/
theorem SearchSpec.exists_build_of_completion {ρ : Type} [Reporter ρ] {spec : SearchSpec}
    {names : Names} {s : Store} {context : Context ρ} {e : SolveError}
    (failed : spec.completion names s = .error e) :
    (∃ e', (spec.build names s context).outcome = .error e') ∧
      ((∃ stages seeds, compileAll s .explicit spec.leaves context.seeds = .ok stages seeds) →
        (spec.build names s context).outcome = .error e) := by
  constructor
  · cases outcome : (spec.build names s context).outcome with
    | error e' => exact ⟨e', rfl⟩
    | ok what =>
      obtain ⟨stages, later, compiled⟩ := exists_stages_of_build outcome
      obtain ⟨-, -, sets, -, -, completed, -⟩ := exists_of_stages compiled
      cases failed.symm.trans completed
  · rintro ⟨explicit, seeds, compiled⟩
    have fails : spec.stages names s context.seeds = .error e seeds := by
      unfold stages
      rw [bind_apply, compiled]
      simp only [failed]
      rfl
    unfold build
    rw [fails]

namespace Solving

/-- How the solves of a search fail over a sink that takes everything, whatever they are to show. -/
structure Refuses (request : SolveRequest) (spec : SearchSpec) (session : Session) : Prop where
  /-- They fail exactly if the search cannot be built. -/
  fails_iff : ∀ verbose statistics,
    (∃ e rest, solve (request.showing verbose statistics) spec session = .error e rest) ↔
      ∃ e, (built request spec session).outcome = .error e
  /-- They leave the store and the channel as they were and have handed over no store. What they
  have written is the heading. -/
  leaves : ∀ verbose statistics e rest,
    solve (request.showing verbose statistics) spec session = .error e rest →
      rest.store = session.store ∧ rest.channel = session.channel ∧
        (∀ stores, ¬ Accepts request spec session stores) ∧
        rest.sink.taken = session.sink.taken ++ (SinkRequest.textOf
          ((request.showing verbose statistics).heading spec session.store)).toUTF8
  /-- One that does not announce the model has written nothing, and fails as building does. -/
  silent : ∀ statistics e,
    (∀ rest, solve (request.showing false statistics) spec session = .error e rest →
      rest.sink = session.sink) ∧
    ((∃ rest, solve (request.showing false statistics) spec session = .error e rest) ↔
      (built request spec session).outcome = .error e)
  /-- One that announces it fails alike, unless a variable that hints leave open does not exist.
  Then it fails with that, which is what building fails with if all leaves can be compiled. -/
  announced : ∀ statistics,
    ((∃ sets, spec.completion request.names session.store = .ok sets) → ∀ e,
      (∃ rest, solve (request.showing true statistics) spec session = .error e rest) ↔
        (built request spec session).outcome = .error e) ∧
    ∀ e, spec.completion request.names session.store = .error e →
      (∃ rest, solve (request.showing true statistics) spec session = .error e rest) ∧
        ((∃ stages seeds, SearchSpec.compileAll session.store .explicit spec.leaves
            (context request spec session).seeds = .ok stages seeds) →
          (built request spec session).outcome = .error e)

variable {request : SolveRequest} {spec : SearchSpec} {session rest : Session} {e : SolveError}

/-! ## What a refused solve asks for -/

/-- A search that cannot be built leaves the session as it is. -/
theorem search_of_refused (failed : (built request spec session).outcome = .error e) :
    search request spec session = .error e session := by
  rw [search_of_error failed]
  obtain ⟨seeds, same⟩ := SearchSpec.exists_build_eq_of_error failed
  rw [show built request spec session = _ from same]
  rfl

theorem asks_search_of_refused (failed : (built request spec session).outcome = .error e) :
    Asks (search request spec) session [] (.error e session) := by
  refine asks_nothing ?_ fun sink => ?_
  · rintro _ _ ⟨⟩
    exact SolveError.inward_build spec request.names session.store _ e failed
  · have failed' : (built request spec { session with sink }).outcome = .error e := by
      rw [← failed]
      exact SearchSpec.outcome_build_congr rfl
    exact search_of_refused failed'

/-- A solve whose search cannot be built asks for its heading and for nothing more. -/
theorem asks_solve_of_refused (listed : request.options.verbose = true →
      ∃ sets, spec.completion request.names session.store = .ok sets)
    (failed : (built request spec session).outcome = .error e) :
    Asks (solve request spec) session (request.heading spec session.store)
      (.error e (opened request spec session)) := by
  have failed' : (built request spec (opened request spec session)).outcome = .error e := by
    rw [← failed]
    exact SearchSpec.outcome_build_congr rfl
  have asks : Asks (do
      let started ← opening request spec
      let searched ← search request spec
      closing request session.store started searched) session
      (request.heading spec session.store ++ []) _ :=
    (asks_opening listed).bind (asks_search_of_refused failed').bind_error
  rw [List.append_nil] at asks
  exact asks.of_eq fun sink => solve_eq request spec { session with sink }

/-- So does a solve that cannot list what hints leave open. -/
theorem asks_solve_of_unlisted (verbose : request.options.verbose = true)
    (failed : spec.completion request.names session.store = .error e) :
    Asks (solve request spec) session (request.heading spec session.store)
      (.error e (noted request spec session)) := by
  have asks : Asks (do
      let started ← opening request spec
      let searched ← search request spec
      closing request session.store started searched) session _ _ :=
    (asks_opening_of_error verbose failed).bind_error
  exact asks.of_eq fun sink => solve_eq request spec { session with sink }

/-- Over a sink that takes everything a step that asks for some requests and fails has made them
all. -/
theorem Asks.exists_eq_error {α : Type} {step : Solving α} {requests : List SinkRequest}
    (asks : Asks step session requests (.error e rest)) (endless : session.sink.Endless) :
    ∃ sink, session.sink.Grants requests sink ∧
      step session = .error e { rest with sink } := by
  obtain ⟨sink, granted, -⟩ := endless.exists_grants requests
  exact ⟨sink, granted, asks.granted session.sink sink granted⟩

/-- Whatever a refused solve fails with, it asks for its heading and keeps the store and the
channel. -/
theorem exists_asks_of_refused (failed : (built request spec session).outcome = .error e) :
    ∃ e' rest, Asks (solve request spec) session (request.heading spec session.store)
        (.error e' rest) ∧ rest.store = session.store ∧ rest.channel = session.channel := by
  rcases listed_or_unlisted request spec session.store with listed | ⟨verbose, e', unlisted⟩
  · exact ⟨_, _, asks_solve_of_refused listed failed, rfl, rfl⟩
  · exact ⟨_, _, asks_solve_of_unlisted verbose unlisted, rfl, rfl⟩

/-! ## Over a sink that takes everything -/

section Endless

variable (reached : session.store.Reachable) (endless : session.sink.Endless)
include reached endless

theorem exists_solve_eq_error_iff :
    (∃ e rest, solve request spec session = .error e rest) ↔
      ∃ e, (built request spec session).outcome = .error e := by
  constructor
  · rintro ⟨e, rest, fails⟩
    cases outcome : (built request spec session).outcome with
    | error e' => exact ⟨e', rfl⟩
    | ok what =>
      obtain ⟨_, _, solved⟩ := exists_solve_eq_ok reached.formed endless outcome
      cases fails.symm.trans solved
  · rintro ⟨e, failed⟩
    obtain ⟨e', rest, asks, -⟩ := exists_asks_of_refused failed
    obtain ⟨sink, -, fails⟩ := asks.exists_eq_error endless
    exact ⟨e', _, fails⟩

/-- A solve that can list what hints leave open, or need not, fails as building does. -/
theorem solve_eq_error_iff_of_listed (listed : request.options.verbose = true →
      ∃ sets, spec.completion request.names session.store = .ok sets) :
    (∃ rest, solve request spec session = .error e rest) ↔
      (built request spec session).outcome = .error e := by
  constructor
  · rintro ⟨rest, fails⟩
    obtain ⟨e', failed⟩ := (exists_solve_eq_error_iff reached endless).1 ⟨e, rest, fails⟩
    obtain ⟨sink, -, fails'⟩ := (asks_solve_of_refused listed failed).exists_eq_error endless
    cases fails.symm.trans fails'
    exact failed
  · intro failed
    obtain ⟨sink, -, fails⟩ := (asks_solve_of_refused listed failed).exists_eq_error endless
    exact ⟨_, fails⟩

theorem kept_of_refused (fails : solve request spec session = .error e rest) :
    rest.store = session.store ∧ rest.channel = session.channel ∧
      session.sink.Grants (request.heading spec session.store) rest.sink := by
  obtain ⟨_, failed⟩ := (exists_solve_eq_error_iff reached endless).1 ⟨e, rest, fails⟩
  obtain ⟨_, _, asks, store, channel⟩ := exists_asks_of_refused failed
  obtain ⟨sink, granted, fails'⟩ := asks.exists_eq_error endless
  cases fails.symm.trans fails'
  exact ⟨store, channel, granted⟩

end Endless

/-- What solves are to show has no say in what they build. -/
theorem outcome_built_showing (verbose statistics : Bool) :
    (built (request.showing verbose statistics) spec session).outcome =
      (built request spec session).outcome := SearchSpec.outcome_build_congr rfl

theorem refuses_of_reachable (reached : session.store.Reachable) (endless : session.sink.Endless)
    (request : SolveRequest) (spec : SearchSpec) : Refuses request spec session := by
  constructor
  · intro verbose statistics
    rw [exists_solve_eq_error_iff reached endless, outcome_built_showing]
  · intro verbose statistics e rest fails
    obtain ⟨_, failed⟩ := (exists_solve_eq_error_iff reached endless).1 ⟨e, rest, fails⟩
    rw [outcome_built_showing] at failed
    obtain ⟨store, channel, granted⟩ := kept_of_refused reached endless fails
    refine ⟨store, channel, fun stores accepts => ?_,
      SinkRequest.emits_performAll _ _ _ granted⟩
    cases accepts with
    | trivially outcome | searched outcome => cases failed.symm.trans outcome
  · intro statistics e
    refine ⟨fun rest fails => ?_, ?_⟩
    · obtain ⟨-, -, granted⟩ := kept_of_refused reached endless fails
      exact (pure_eq_ok.1 granted).2.symm
    · rw [← outcome_built_showing false statistics]
      exact solve_eq_error_iff_of_listed reached endless (by rintro ⟨⟩)
  · intro statistics
    refine ⟨fun listed e => ?_, fun e failed => ⟨?_, ?_⟩⟩
    · rw [← outcome_built_showing true statistics]
      exact solve_eq_error_iff_of_listed reached endless fun _ => listed
    · have asks : Asks (solve (request.showing true statistics) spec) session _ _ :=
        asks_solve_of_unlisted rfl failed
      obtain ⟨sink, -, fails⟩ := asks.exists_eq_error endless
      exact ⟨_, fails⟩
    · exact (SearchSpec.exists_build_of_completion failed).2

/-- Hints and costs that cannot be resolved leave the session alone, whatever the options are. A
search that cannot be built fails before it begins, and its options settle only whether the model
is announced before it fails. -/
theorem refused_of_endless (reached : session.store.Reachable) (endless : session.sink.Endless)
    (request : SolveRequest) :
    (∀ spec, Refuses request spec session) ∧ ∀ item verbose statistics,
      (∀ e, SearchSpec.ofItem item request.names session.store = .error e →
        solveItem (request.showing verbose statistics) item session = .error e session) ∧
      ∀ spec, SearchSpec.ofItem item request.names session.store = .ok spec →
        solveItem (request.showing verbose statistics) item session =
          solve (request.showing verbose statistics) spec session := by
  refine ⟨refuses_of_reachable reached endless request, fun item verbose statistics => ?_⟩
  have resolved := solveItem_eq (request.showing verbose statistics) session item
  refine ⟨fun e failed => ?_, fun spec succeeded => ?_⟩
  · rw [resolved, show SearchSpec.ofItem item (request.showing verbose statistics).names _ = _ from
      failed]
  · rw [resolved, show SearchSpec.ofItem item (request.showing verbose statistics).names _ = _ from
      succeeded]

/-- A maximization that is refused whatever it is to show, with its report wanted. -/
theorem refused_of_endless_maximize :
    let s := StoreOperation.applyAll .empty [.declareInt "c" Signed64.least 0]
    let request : SolveRequest := ⟨Names.ofStore s, SolveOptions.default, false⟩
    let leaf := SearchDirective.leaf .int ⟨[⟨0⟩], some .inputOrder, some .min, .complete⟩
    let spec : SearchSpec := ⟨.maximize, some ⟨0⟩, some leaf⟩
    let session : Session :=
      ⟨s, Sink.reliable, Clock.still, Generator.ofSeed 0, some Channel.opened, Journal.silent⟩
    session.store.Reachable ∧ session.sink.Endless ∧ Refuses request spec session ∧
      ∃ rest, solve (request.showing false true) spec session =
          .error (.malformedCost (.notNegatable "c")) rest ∧
        rest.sink = session.sink ∧ rest.store = s ∧ rest.channel = some Channel.opened := by
  intro s request leaf spec session
  have reached : session.store.Reachable := Store.Reachable.empty.applyAll (by decide)
  have endless : session.sink.Endless := ⟨rfl, rfl⟩
  have refuses := (refused_of_endless reached endless request).1 spec
  obtain ⟨untouched, fails⟩ := refuses.silent true (.malformedCost (.notNegatable "c"))
  obtain ⟨rest, failed⟩ := fails.2 rfl
  obtain ⟨store, channel, -⟩ := refuses.leaves false true _ rest failed
  exact ⟨reached, endless, refuses, rest, failed, untouched rest failed, store, channel⟩

/-- A cost that cannot be negated is refused after the model has been announced. And where a leaf
takes variables of another kind and a decision variable does not exist, it depends on the
announcement which of the two is the reason. -/
theorem exists_refused_after_heading :
    ∃ (request request' : SolveRequest) (spec spec' : SearchSpec) (session : Session),
      session.store.Reachable ∧ session.sink.Endless ∧ session.sink.taken = ByteArray.empty ∧
      (∃ rest, solve (request.showing true false) spec session =
          .error (.malformedCost (.notNegatable "c")) rest ∧
        rest.sink.taken = ("%% Model constraints defined.\n" ++
          "%% Variables = 1, Bool variables = 0, Constraints = 0\n%% maximize(c) \n" ++
          "%% default int search variables = []\n%% default boolean search variables = []\n" ++
          "%% default set search variables = []\n").toUTF8) ∧
      (∃ rest, solve (request'.showing false false) spec' session =
        .error (.kindMismatch "c" (.leaf .set) .set .int) rest) ∧
      ∃ rest, solve (request'.showing true false) spec' session =
        .error (.store (.unknownVariable ⟨5⟩)) rest := by
  let s := StoreOperation.applyAll .empty [.declareInt "c" Signed64.least 0]
  let leaf (kind : VarKind) : SearchDirective :=
    .leaf kind ⟨[⟨0⟩], some .inputOrder, some .min, .complete⟩
  let request : SolveRequest := ⟨Names.empty, SolveOptions.default, false⟩
  let request' : SolveRequest := ⟨Names.empty.addDecision ⟨5⟩, SolveOptions.default, false⟩
  let spec : SearchSpec := ⟨.maximize, some ⟨0⟩, some (leaf .int)⟩
  let spec' : SearchSpec := ⟨.satisfy, none, some (leaf .set)⟩
  let session : Session := ⟨s, Sink.reliable, Clock.still, Generator.ofSeed 0, none, Journal.silent⟩
  have reached : session.store.Reachable := Store.Reachable.empty.applyAll (by decide)
  have endless : session.sink.Endless := ⟨rfl, rfl⟩
  refine ⟨request, request', spec, spec', session, reached, endless, rfl, ?_, ?_, ?_⟩
  · have refused : (built (request.showing true false) spec session).outcome =
        .error (.malformedCost (.notNegatable "c")) := rfl
    obtain ⟨rest, fails⟩ :=
      (solve_eq_error_iff_of_listed reached endless fun _ => ⟨_, rfl⟩).2 refused
    obtain ⟨-, -, granted⟩ := kept_of_refused reached endless fails
    have taken := SinkRequest.emits_performAll _ _ _ granted
    have heading : SinkRequest.textOf ((request.showing true false).heading spec s) =
        "%% Model constraints defined.\n" ++
          "%% Variables = 1, Bool variables = 0, Constraints = 0\n%% maximize(c) \n" ++
          "%% default int search variables = []\n%% default boolean search variables = []\n" ++
          "%% default set search variables = []\n" := by decide +kernel
    exact ⟨rest, fails, by rw [taken, heading]; exact ByteArray.empty_append⟩
  · exact (solve_eq_error_iff_of_listed reached endless (by rintro ⟨⟩)).2 rfl
  · have unlisted : spec'.completion request'.names s = .error (.store (.unknownVariable ⟨5⟩)) :=
      rfl
    have asks : Asks (solve (request'.showing true false) spec') session _ _ :=
      asks_solve_of_unlisted rfl unlisted
    obtain ⟨sink, -, fails⟩ := asks.exists_eq_error endless
    exact ⟨_, fails⟩

end Solving

end StagedSearch
