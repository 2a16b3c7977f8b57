/-
# Faults of the output

A sink that fails cuts what a solve writes, and does not garble it. Compared with the same solve
over a sink that never fails, the bytes that were taken are a beginning of the others; the solve
fails because of the output exactly if the other one makes the request that is refused, and comes
to the same outcome otherwise; and with the first fault it is over, for the sink and for the
listener.

Nothing is assumed of the store, the search, the options or the clock. In particular the search
may be limited or late, and the fault may come with any request: while the model is announced,
within a solution, at a flush, or in the lines at the end.

The search may be random as well. The two solves begin in sessions that differ in the sink only, so
they share the readings of the clock, and without a requested seed they also share the entropy, the
generator that the system hands out. Two solves with an entropy each need not find their solutions
in the same order, and then nothing of this holds between them.
-/

import StagedSearch.Proofs.Solve.Requests

namespace StagedSearch

namespace Solving

/-- What a solve comes to over a sink that may fail, beside the same solve over the sink that never
fails, which makes the given requests. Both take their seeds from one entropy if none is
requested. -/
structure CutByFault (request : SolveRequest) (spec : SearchSpec) (session : Session)
    (requests : List SinkRequest) (sink : Sink) : Prop where
  /-- The sink that never fails is left as the requests leave it. -/
  whole : sink.unfailing.Grants requests
    (left (solve request spec) { session with sink := sink.unfailing }).sink
  /-- What was taken is a beginning of what the other sink takes. -/
  taken : (left (solve request spec) { session with sink }).sink.taken.data.toList <+:
    (left (solve request spec) { session with sink := sink.unfailing }).sink.taken.data.toList
  /-- The solve fails because of the output exactly if one of the requests is refused. -/
  fails_iff : (∃ fault rest, solve request spec { session with sink } =
      .error (.output fault) rest) ↔ ∃ fault after, sink.Refuses requests fault after
  /-- Otherwise it comes to the same outcome, or to the same error. -/
  same : ∀ after, sink.Grants requests after → solve request spec { session with sink } =
    withSink (solve request spec { session with sink := sink.unfailing }) after
  /-- The request that is refused is the last one that is made. -/
  ends : ∀ fault after, sink.Refuses requests fault after →
    ∃ rest, solve request spec { session with sink } = .error (.output fault) rest ∧
      rest.sink = after
  /-- The listener accepts no further solution after one whose report has failed. -/
  last : ∀ t st steps, begun? request spec { session with sink } = some (t, st) →
    t.Follows st steps → st.context.listener.EndsWithFault (SearchStep.accepted steps)

variable {α : Type} {step : Solving α} {session : Session} {requests : List SinkRequest}
  {result : EStateM.Result SolveError Session α} {sink after : Sink} {fault : OutputFault}

/-- What a step leaves of a sink that grants its requests. -/
theorem Asks.sink_left (asks : Asks step session requests result)
    (granted : sink.Grants requests after) : (left step { session with sink }).sink = after := by
  unfold left
  rw [asks.granted sink after granted]
  cases result <;> rfl

theorem Asks.sink_left_of_refuses (asks : Asks step session requests result)
    (refused : sink.Refuses requests fault after) :
    (left step { session with sink }).sink = after := by
  obtain ⟨rest, fails, same⟩ := asks.refused sink fault after refused
  rw [left_of_error fails, same]

/-- An endless sink takes all of the text, and any other sink a beginning of it. -/
theorem Asks.taken_prefix (asks : Asks step session requests result) (sink : Sink) :
    (left step { session with sink }).sink.taken.data.toList <+:
      (left step { session with sink := sink.unfailing }).sink.taken.data.toList := by
  obtain ⟨whole, granted, -⟩ := sink.endless_unfailing.exists_grants requests
  rw [asks.sink_left granted, granted.taken]
  rcases sink.grants_or_refuses requests with ⟨after, all⟩ | ⟨fault, after, refused⟩
  · rw [asks.sink_left all, all.taken]
    exact List.prefix_rfl
  · obtain ⟨part, begins, taken⟩ := refused.taken
    rw [asks.sink_left_of_refuses refused, taken]
    exact (List.prefix_append_right_inj _).2 begins

/-- A step fails because of the output exactly if a request is refused. -/
theorem Asks.fails_iff (asks : Asks step session requests result) (sink : Sink) :
    (∃ fault rest, step { session with sink } = .error (.output fault) rest) ↔
      ∃ fault after, sink.Refuses requests fault after := by
  constructor
  · rintro ⟨fault, rest, fails⟩
    rcases sink.grants_or_refuses requests with ⟨after, granted⟩ | refused
    · rw [asks.granted sink after granted] at fails
      cases result with
      | ok a left => cases fails
      | error e left =>
        cases fails
        exact absurd trivial (asks.inward _ left rfl)
    · exact refused
  · rintro ⟨fault, after, refused⟩
    obtain ⟨rest, fails, -⟩ := asks.refused sink fault after refused
    exact ⟨fault, rest, fails⟩

/-- There are requests, one list for all sinks, by which a fault of the sink cuts a solve. -/
theorem exists_cutByFault (request : SolveRequest) (spec : SearchSpec) (session : Session) :
    ∃ requests, ∀ sink, CutByFault request spec session requests sink := by
  obtain ⟨requests, result, asks⟩ := streams_solve request spec session
  refine ⟨requests, fun sink => ?_⟩
  obtain ⟨whole, granted, -⟩ := sink.endless_unfailing.exists_grants requests
  refine ⟨?_, asks.taken_prefix sink, asks.fails_iff sink, fun after all => ?_,
    fun fault after => asks.refused sink fault after, fun t st steps _ follows =>
      follows.endsWithFault⟩
  · rwa [asks.sink_left granted]
  · rw [asks.granted sink after all, asks.granted sink.unfailing whole granted]
    cases result <;> rfl

/-- The second flush fails. Both solutions have been written then, and the ending never is. -/
example :
    let s := StoreOperation.applyAll Store.empty [.declareBool "x"]
    let request : SolveRequest :=
      ⟨Names.empty.addDecisions [⟨0⟩], { SolveOptions.default with allSolutions := true }, false⟩
    let sink : Sink := ⟨ByteArray.empty, .unlimited, some 1⟩
    (left (solve request ⟨.satisfy, none, none⟩)
      ⟨s, sink, Clock.still, Generator.ofSeed 0, none, Journal.silent⟩).sink.text? =
        some "----------\n----------\n" := by
  decide +kernel

end Solving

end StagedSearch
