/-
# The steps of a solve

A solve opens, searches and closes. Opening and closing write to the sink, read the clock and
note events, and both can fail; on no way out do they change the store, or the entropy that the
session was given. So what a solve does to the store is what its search does, what it builds is
settled before it opens, and how it ends between the search and the closing.
-/

import StagedSearch.Proofs.Search.Complete
import StagedSearch.Solve.Basic

namespace StagedSearch

namespace Solving

variable {α β : Type}

/-! ## Steps that keep what a search is built from -/

/-- The session that a step leaves behind, whether it fails or not. -/
def left (step : Solving α) (session : Session) : Session :=
  match step session with
  | .ok _ session => session
  | .error _ session => session

/-- A step that leaves the store and the entropy as they are, whether it fails or not. -/
structure Keeps (step : Solving α) : Prop where
  store : ∀ session, (left step session).store = session.store
  entropy : ∀ session, (left step session).entropy = session.entropy

theorem left_of_ok {step : Solving α} {session after : Session} {a : α}
    (run : step session = .ok a after) : left step session = after := by
  unfold left
  rw [run]

theorem left_of_error {step : Solving α} {session after : Session} {e : SolveError}
    (run : step session = .error e after) : left step session = after := by
  unfold left
  rw [run]

theorem left_bind (step : Solving α) (next : α → Solving β) (session : Session) :
    left (step >>= next) session =
      match step session with
      | .ok a session => left (next a) session
      | .error _ session => session := by
  unfold left
  rw [bind_apply]
  cases step session <;> rfl

/-- What follows a step adds nothing to what the step does to a part of the session, if it leaves
that part as it is. -/
theorem part_left_bind {γ : Type} (part : Session → γ) (step : Solving α) {next : α → Solving β}
    (rest : ∀ a session, part (left (next a) session) = part session) (session : Session) :
    part (left (step >>= next) session) = part (left step session) := by
  rw [left_bind]
  unfold left
  cases step session with
  | ok a after => exact rest a after
  | error e after => rfl

theorem Keeps.bind {step : Solving α} {next : α → Solving β} (first : step.Keeps)
    (rest : ∀ a, (next a).Keeps) : Keeps (step >>= next) where
  store session :=
    (part_left_bind Session.store step (fun a => (rest a).store) session).trans
      (first.store session)
  entropy session :=
    (part_left_bind Session.entropy step (fun a => (rest a).entropy) session).trans
      (first.entropy session)

theorem keeps_pure (a : α) : Keeps (pure a) := ⟨fun _ => rfl, fun _ => rfl⟩

theorem keeps_throw (e : SolveError) : Keeps (throw e : Solving α) :=
  ⟨fun _ => rfl, fun _ => rfl⟩

theorem keeps_get : Keeps get := ⟨fun _ => rfl, fun _ => rfl⟩

theorem keeps_note (event : SearchEvent) : Keeps (note event) := ⟨fun _ => rfl, fun _ => rfl⟩

theorem keeps_readClock : Keeps readClock := ⟨fun _ => rfl, fun _ => rfl⟩

theorem keeps_write (writing : Writing Unit) : Keeps (write writing) := by
  constructor <;>
  · intro session
    unfold left write
    cases writing session.sink <;> rfl

theorem keeps_announce (names : Names) (spec : SearchSpec) : Keeps (announce names spec) := by
  refine keeps_get.bind fun session => (keeps_write _).bind fun _ => ?_
  cases spec.completion names session.store with
  | error e => exact keeps_throw e
  | ok sets => exact keeps_write _

/-! ## Opening and closing -/

/-- What a solve does before it searches. It gives the time. -/
def opening (request : SolveRequest) (spec : SearchSpec) : Solving Nat := do
  let s := (← get).store
  note (.solveStarted s.size s.constraints.length spec.goal (searchesAll request.options spec))
  if request.options.verbose then announce request.names spec
  readClock

/-- What a solve writes and gives at its end, about the model that a store holds. -/
def finishing (request : SolveRequest) (s : Store) (searchTime : Nat) (searched : Searched) :
    Solving SolveOutcome := do
  let found := decide (0 < searched.listener.count)
  write (Protocol.writeLines (Protocol.statusLines searched.status found))
  let report : SolveReport := ⟨s.size, s.constraints.length, searchTime, searched.statistics⟩
  if request.options.statistics then write (Protocol.writeLine report.render)
  write Sink.flush
  note (.solveEnded searched.status searched.statistics.solutions searched.statistics.nodes
    (searchTime / 1000000))
  return ⟨searched.status, found, report, searched.listener.last, searched.listener.kept.toList⟩

/-- What a solve does once it has searched: it fails if a report has failed, and otherwise
finishes. -/
def closing (request : SolveRequest) (s : Store) (started : Nat) (searched : Searched) :
    Solving SolveOutcome := do
  let searchTime := (← readClock) - started
  match searched.listener.fault with
  | some fault => throw (.output fault)
  | none => finishing request s searchTime searched

theorem solve_eq (request : SolveRequest) (spec : SearchSpec) (session : Session) :
    solve request spec session =
      (do
        let started ← opening request spec
        let searched ← search request spec
        closing request session.store started searched : Solving SolveOutcome) session := by
  let noted : Session := { session with
    journal := session.journal.note (.solveStarted session.store.size
      session.store.constraints.length spec.goal (searchesAll request.options spec)) }
  cases verbose : request.options.verbose with
  | true =>
    have opened : opening request spec session =
        (announce request.names spec >>= fun _ => readClock) noted := by
      unfold opening
      rw [verbose]
      rfl
    have solved : solve request spec session =
        (announce request.names spec >>= fun _ => (do
          let started ← readClock
          let searched ← search request spec
          closing request session.store started searched : Solving SolveOutcome)) noted := by
      unfold solve
      rw [verbose]
      rfl
    rw [solved, bind_apply, bind_apply, opened, bind_apply]
    cases announce request.names spec noted <;> rfl
  | false =>
    unfold solve opening
    rw [verbose]
    rfl

theorem keeps_opening (request : SolveRequest) (spec : SearchSpec) :
    Keeps (opening request spec) := by
  refine keeps_get.bind fun session => (keeps_note _).bind fun _ => ?_
  dsimp only
  split
  · exact (keeps_announce _ _).bind fun _ => keeps_readClock
  · exact keeps_readClock

theorem keeps_finishing (request : SolveRequest) (s : Store) (searchTime : Nat)
    (searched : Searched) : Keeps (finishing request s searchTime searched) := by
  have ending (e : SearchEvent) (outcome : SolveOutcome) :
      Keeps (do write Sink.flush; note e; return outcome) :=
    (keeps_write _).bind fun _ => (keeps_note _).bind fun _ => keeps_pure _
  refine (keeps_write _).bind fun _ => ?_
  dsimp only
  split
  · exact (keeps_write _).bind fun _ => ending _ _
  · exact ending _ _

theorem keeps_closing (request : SolveRequest) (s : Store) (started : Nat)
    (searched : Searched) : Keeps (closing request s started searched) := by
  refine keeps_readClock.bind fun ended => ?_
  dsimp only
  split
  · exact keeps_throw _
  · exact keeps_finishing request s _ searched

/-! ## Searching -/

section Searching

variable {request : SolveRequest} {spec : SearchSpec} {session opened : Session} {started : Nat}
  {t : SearchTree} {st : SearchState ProtocolReporter}

def built (request : SolveRequest) (spec : SearchSpec) (session : Session) :
    Built ProtocolReporter :=
  spec.build request.names session.store (context request spec session)

theorem search_of_error {e : SolveError}
    (fails : (built request spec session).outcome = .error e) :
    search request spec session = .error e
      (session.after (built request spec session).store (built request spec session).context) := by
  unfold built at fails ⊢
  simp only [search, fails]

theorem search_of_trivial (trivial : (built request spec session).outcome = .ok .trivial) :
    search request spec session = .ok
      ⟨.trivial, SearchStatistics.ofTrivial, (built request spec session).context.listener⟩
      (session.after (built request spec session).store (built request spec session).context) := by
  unfold built at trivial ⊢
  simp only [search, trivial]

theorem search_of_tree (outcome : (built request spec session).outcome = .ok (.tree t))
    (begins : (built request spec session).start t = st) :
    search request spec session = .ok
      ⟨SearchStatus.ofResult (t.run st).1 (searchesAll request.options spec)
          (t.run st).2.context.listener.limitReached t.isComplete,
        SearchStatistics.aggregate t (t.run st).2.progress, (t.run st).2.context.listener⟩
      (session.after (t.run st).2.store (t.run st).2.context) := by
  subst begins
  unfold built at outcome ⊢
  simp only [search, outcome]

/-- The run of a solve does not break off, if its clock tells nanoseconds that 64 bits count. -/
theorem launch_of_tree (outcome : (built request spec session).outcome = .ok (.tree t))
    (begins : (built request spec session).start t = st)
    (timeout : Signed64.InRange request.options.timeoutMs)
    (reading : session.clock.read.1 ≤ Unsigned64.greatest) : t.launch st = .ok (t.run st) := by
  have fits : st.context.DeadlineFits := by
    subst begins
    refine SearchSpec.deadlineFits_build.2 (Context.deadlineFits_iff.2 fun limit limited => ?_)
    have milliseconds : limit ≤ request.options.timeoutMs.toNat * 1000000 := by
      change request.options.timeLimit? = some limit at limited
      unfold SolveOptions.timeLimit? SolveOptions.timeLimitMs? at limited
      split at limited
      · cases limited
        rfl
      · cases limited
    change session.clock.read.1 + limit ≤ Clock.longest
    unfold Signed64.InRange Signed64.greatest at timeout
    unfold Unsigned64.greatest at reading
    unfold Clock.longest Unsigned64.modulus
    omega
  rw [SearchState.launch_eq (SearchSpec.size_pos_of_build outcome) st, if_pos fits]

theorem store_of_opening (opens : opening request spec session = .ok started opened) :
    opened.store = session.store :=
  left_of_ok opens ▸ (keeps_opening request spec).store session

theorem entropy_of_opening (opens : opening request spec session = .ok started opened) :
    opened.entropy = session.entropy :=
  left_of_ok opens ▸ (keeps_opening request spec).entropy session

theorem seeds_of_opening (opens : opening request spec session = .ok started opened) :
    seeds request.options opened = seeds request.options session := by
  unfold seeds
  rw [entropy_of_opening opens]

/-- The tree that a solve runs, and the state in which the run begins: none if the solve fails
before it has a tree, or if there is nothing to decide. -/
def begun? (request : SolveRequest) (spec : SearchSpec) (session : Session) :
    Option (SearchTree × SearchState ProtocolReporter) :=
  match opening request spec session with
  | .error _ _ => none
  | .ok _ opened =>
    match (built request spec opened).outcome with
    | .ok (.tree tree) => some (tree, (built request spec opened).start tree)
    | .ok .trivial => none
    | .error _ => none

theorem begun?_of_tree (opens : opening request spec session = .ok started opened)
    (outcome : (built request spec opened).outcome = .ok (.tree t)) :
    begun? request spec session = some (t, (built request spec opened).start t) := by
  simp only [begun?, opens, outcome]

theorem begun?_of_ne_tree (opens : opening request spec session = .ok started opened)
    (none : ∀ t, (built request spec opened).outcome ≠ .ok (.tree t)) :
    begun? request spec session = .none := by
  simp only [begun?, opens]
  cases outcome : (built request spec opened).outcome with
  | error e => rfl
  | ok what =>
    cases what with
    | trivial => rfl
    | tree t => exact absurd outcome (none t)

/-- A run that a solve begins is that of a tree which is built once the solve is opened. -/
theorem exists_of_begun? (begun : begun? request spec session = some (t, st)) :
    ∃ started opened, opening request spec session = .ok started opened ∧
      (built request spec opened).outcome = .ok (.tree t) ∧
      (built request spec opened).start t = st := by
  cases opens : opening request spec session with
  | error e opened =>
    simp only [begun?, opens] at begun
    cases begun
  | ok started opened =>
    by_cases tree : ∃ t, (built request spec opened).outcome = .ok (.tree t)
    · obtain ⟨t', outcome⟩ := tree
      rw [begun?_of_tree opens outcome] at begun
      cases begun
      exact ⟨started, opened, rfl, outcome, rfl⟩
    · rw [begun?_of_ne_tree opens (not_exists.1 tree)] at begun
      cases begun

end Searching

end Solving

end StagedSearch
