/-
# The channels of a solve

A solve reports its solutions in five ways: it writes them, sends them over the channel of its
session, keeps them, remembers the last one, and counts them at a node of its tree. All of them
are made of the same stores, those that the search hands over, and so they agree, however the
solve ends (`Agrees`).

What else is written goes around the solutions: the model is announced before them, and the end
of the search is told after them. Whether the one and the report in the other are wanted makes no
difference to anything else, which is what the requests say that a solve makes of its sink. And a
channel makes no difference at all but to itself.

Solves are compared that begin in one session, so they share the readings of the clock and, where
no seed is requested, the entropy. A search that takes its values at random would otherwise take
them in another order. Where a seed is requested, the entropy makes no difference either.
-/

import StagedSearch.Proofs.Solve.Returns
import StagedSearch.Proofs.Solve.Streaming

namespace StagedSearch

/-- The same request, with the model announced or not, and with a report at the end or not. -/
def SolveRequest.showing (request : SolveRequest) (verbose statistics : Bool) : SolveRequest :=
  { request with options := { request.options with verbose, statistics } }

/-- All that is asked of a sink by a solve that accepts some stores and comes to an outcome. -/
def SolveRequest.asked (request : SolveRequest) (spec : SearchSpec) (s : Store)
    (stores : List Store) (outcome : SolveOutcome) : List SinkRequest :=
  request.heading spec s ++
    (stores.flatMap (Protocol.solutionRequests request.names) ++ request.finish outcome)

/-- The solutions that some stores hold: numbered from one, with the cost of each. -/
def SearchSpec.solutionsOf (spec : SearchSpec) (stores : List Store) : List Solution :=
  (stores.zipIdx 1).map fun (s, number) =>
    Solution.capture s number ((spec.cost.bind s.value?).bind Value.asInt?)

namespace Solving

/-- What a solve has reported that accepts some stores and returns. The bytes are the heading, a
block for each store and the ending. What was sent to a receiver and what was kept are the
solutions of the same stores, numbered from one; the best solution is the last of them, whether
there is one is told, and the statistics have their number. -/
structure Agrees (request : SolveRequest) (spec : SearchSpec) (session : Session)
    (stores : List Store) (outcome : SolveOutcome) (after : Session) : Prop where
  written : after.sink.taken = session.sink.taken ++
    (SinkRequest.textOf (request.heading spec session.store) ++
      String.join (stores.map (Protocol.assignment request.names)) ++
      request.ending outcome).toUTF8
  sent : ∀ before, session.channel = some ⟨true, before⟩ →
    after.channel = some ⟨true, before ++ (spec.solutionsOf stores).toArray⟩
  kept : request.retain = true → outcome.solutions = spec.solutionsOf stores
  numbered : (spec.solutionsOf stores).map Solution.number = List.range' 1 stores.length
  best : outcome.best = (spec.solutionsOf stores).getLast?
  found : outcome.found = !stores.isEmpty
  counted : outcome.report.statistics.solutions = stores.length

end Solving

/-! ## What is written -/

theorem SolveRequest.textOf_finish (request : SolveRequest) (outcome : SolveOutcome) :
    SinkRequest.textOf (request.finish outcome) = request.ending outcome := by
  unfold finish ending
  rw [SinkRequest.textOf_append]
  congr 1
  · simp [SinkRequest.textOf, Protocol.textOf, SinkRequest.text, Function.comp_def]
  · cases request.options.statistics <;>
      simp [SinkRequest.textOf, SinkRequest.text, String.join_cons]

theorem SolveRequest.textOf_asked (request : SolveRequest) (spec : SearchSpec) (s : Store)
    (stores : List Store) (outcome : SolveOutcome) :
    SinkRequest.textOf (request.asked spec s stores outcome) =
      SinkRequest.textOf (request.heading spec s) ++
        String.join (stores.map (Protocol.assignment request.names)) ++
        request.ending outcome := by
  rw [asked, SinkRequest.textOf_append, SinkRequest.textOf_append,
    Protocol.textOf_solutionRequests, textOf_finish, String.append_assoc]

/-! ## What is sent -/

/-- A receiver that listens gets all solutions, behind those that it had. -/
theorem Channel.foldl_send (before : Array Solution) (solutions : List Solution) :
    solutions.foldl send ⟨true, before⟩ = ⟨true, before ++ solutions.toArray⟩ := by
  induction solutions generalizing before with
  | nil => simp
  | cons solution rest ih =>
    rw [List.foldl_cons, send, if_pos rfl, ih]
    simp

namespace Solving

variable {α : Type} {request : SolveRequest} {spec : SearchSpec} {session after found : Session}
  {stores : List Store} {searched : Searched} {outcome : SolveOutcome}
  {requests : List SinkRequest} {step : Solving α}

/-! ## What is asked for -/

theorem Asks.withSink {result : EStateM.Result SolveError Session α}
    (asks : Asks step session requests result) (sink : Sink) :
    Asks step session requests (withSink result sink) := by
  cases result with
  | ok a after =>
    refine ⟨asks.granted, asks.refused, ?_⟩
    rintro _ _ ⟨⟩
  | error e after =>
    refine ⟨asks.granted, asks.refused, ?_⟩
    rintro _ _ ⟨⟩
    exact asks.inward e after rfl

/-- A step that returns has been granted what it asks for. -/
theorem Asks.exists_grants {a b : α} {left : Session}
    (asks : Asks step session requests (.ok a left)) (run : step session = .ok b after) :
    ∃ sink, session.sink.Grants requests sink ∧ b = a ∧ after = { left with sink } := by
  rcases session.sink.grants_or_refuses requests with ⟨sink, granted⟩ | ⟨fault, sink, refused⟩
  · cases run.symm.trans (asks.granted session.sink sink granted)
    exact ⟨sink, granted, rfl, rfl⟩
  · obtain ⟨rest, fails, -⟩ := asks.refused session.sink fault sink refused
    cases run.symm.trans fails

/-- A search has nothing to do with what is shown before and after it. -/
theorem Searches.showing (searches : Searches request spec session stores searched found)
    (verbose statistics : Bool) :
    Searches (request.showing verbose statistics) spec session stores searched found where
  silent := searches.silent
  listener := searches.listener
  channel := searches.channel
  counted := searches.counted
  granted sink after granted := by
    obtain ⟨accepts, run⟩ := searches.granted sink after granted
    refine ⟨?_, run⟩
    cases accepts with
    | trivially outcome => exact .trivially outcome
    | searched outcome follows => exact .searched outcome follows
  refused := searches.refused

theorem Searches.count_eq (searches : Searches request spec session stores searched found) :
    searched.listener.count = stores.length := by
  obtain ⟨reporter, listener⟩ := searches.listener
  rw [listener, (Listener.reports_acceptAll _ stores).count, Listener.length_solutions]
  exact Nat.zero_add _

/-- A search has reported the solutions of the stores that it has handed over. -/
theorem Searches.solutions_eq (searches : Searches request spec session stores searched found) :
    searched.listener.last = (spec.solutionsOf stores).getLast? ∧
      searched.listener.kept =
        (if request.retain then (spec.solutionsOf stores).toArray else #[]) ∧
      found.channel =
        session.channel.map fun c => (spec.solutionsOf stores).foldl Channel.send c := by
  obtain ⟨reporter, listener⟩ := searches.listener
  let l : Listener ProtocolReporter := { Solving.listener request spec session with reporter }
  have reports := l.reports_acceptAll stores
  rw [show l.acceptAll stores = searched.listener from listener.symm,
    show l.solutions stores = spec.solutionsOf stores from l.solutions_eq stores] at reports
  refine ⟨?_, ?_, searches.channel.trans reports.channel⟩
  · rw [reports.last]
    exact Option.or_none
  · rw [reports.kept]
    show (if request.retain then #[] ++ _ else #[]) = _
    rw [Array.empty_append]

theorem Searches.agrees (searches : Searches request spec (opened request spec session) stores
    searched found) {searchTime : Nat} {sink : Sink}
    (granted : session.sink.Grants (request.asked spec session.store stores
      (searched.outcome session.store searchTime)) sink) :
    Agrees request spec session stores (searched.outcome session.store searchTime)
      { searched.closed searchTime found with sink } := by
  obtain ⟨last, kept, channel⟩ := searches.solutions_eq
  have count := searches.count_eq
  constructor
  · rw [← SolveRequest.textOf_asked]
    exact SinkRequest.emits_performAll _ _ _ granted
  · intro before listens
    show found.channel = _
    rw [channel, show (opened request spec session).channel = _ from listens, Option.map_some,
      Channel.foldl_send]
  · intro retained
    show searched.listener.kept.toList = _
    rw [kept, if_pos retained]
  · simp [SearchSpec.solutionsOf, Solution.capture, Function.comp_def]
  · exact last
  · show decide (0 < searched.listener.count) = _
    rw [count]
    cases stores <;> rfl
  · exact searches.counted.trans count

end Solving

end StagedSearch
