/-
# Solves that return

What is known of a solve that returns. If it ran a tree, then its status is settled by how the
run ended, whether the listener had reached its limit, and whether the tree leaves candidates out;
the rest of the outcome is what the listener has; no report has failed; and the last thing that
was written is the ending of the protocol. If there was nothing to decide, the status is trivial.
-/

import StagedSearch.Proofs.Output.Writing
import StagedSearch.Proofs.Solve.Steps

namespace StagedSearch

/-- What is written at the end of a solve: the lines that tell how the search ended, and the
report if it is asked for. -/
def SolveRequest.ending (request : SolveRequest) (outcome : SolveOutcome) : String :=
  Protocol.textOf (Protocol.statusLines outcome.status outcome.found) ++
    if request.options.statistics then outcome.report.render ++ "\n" else ""

namespace Solving

variable {request : SolveRequest} {spec : SearchSpec} {session after : Session}
  {searched : Searched} {outcome : SolveOutcome}

structure Closes (request : SolveRequest) (searched : Searched) (session : Session)
    (outcome : SolveOutcome) (after : Session) : Prop where
  status : outcome.status = searched.status
  found : outcome.found = decide (0 < searched.listener.count)
  best : outcome.best = searched.listener.last
  solutions : outcome.solutions = searched.listener.kept.toList
  written : after.sink.taken = session.sink.taken ++ (request.ending outcome).toUTF8

theorem taken_of_write {writing : Writing Unit} {text : String} (emits : writing.Emits text)
    {u : Unit} (run : write writing session = .ok u after) :
    after.sink.taken = session.sink.taken ++ text.toUTF8 := by
  unfold write at run
  split at run
  · rename_i ran
    cases run
    exact emits _ _ ran
  · cases run

/-- A flush and a note write nothing more. -/
theorem eq_of_flush {event : SearchEvent} {result : SolveOutcome}
    (run : (do write Sink.flush; note event; return result : Solving SolveOutcome) session =
      .ok outcome after) : outcome = result ∧ after.sink.taken = session.sink.taken := by
  obtain ⟨_, flushed, flush, run⟩ := bind_eq_ok.1 run
  have taken := taken_of_write Sink.emits_flush flush
  cases run
  exact ⟨rfl, taken.trans ByteArray.append_empty⟩

theorem closes_of_finishing {s : Store} {searchTime : Nat}
    (run : finishing request s searchTime searched session = .ok outcome after) :
    Closes request searched session outcome after := by
  obtain ⟨_, first, lines, run⟩ := bind_eq_ok.1 run
  have written := taken_of_write (Protocol.emits_writeLines _) lines
  simp only at run
  split at run
  · rename_i reports
    obtain ⟨_, second, report, run⟩ := bind_eq_ok.1 run
    obtain ⟨rfl, taken⟩ := eq_of_flush run
    refine ⟨rfl, rfl, rfl, rfl, ?_⟩
    rw [taken, taken_of_write (Protocol.emits_writeLine _) report, written, ByteArray.append_assoc]
    simp only [SolveRequest.ending, if_pos reports]
    exact congrArg _ String.toByteArray_append.symm
  · rename_i silent
    obtain ⟨rfl, taken⟩ := eq_of_flush run
    refine ⟨rfl, rfl, rfl, rfl, ?_⟩
    rw [taken, written]
    simp only [SolveRequest.ending, if_neg silent, String.append_empty]

theorem closes_of_closing {s : Store} {started : Nat}
    (run : closing request s started searched session = .ok outcome after) :
    searched.listener.fault = none ∧ Closes request searched session outcome after := by
  obtain ⟨time, timed, read, run⟩ := bind_eq_ok.1 run
  have same : timed.sink = session.sink := by
    cases read
    rfl
  cases fault : searched.listener.fault with
  | some fault =>
    rw [fault] at run
    cases run
  | none =>
    rw [fault] at run
    obtain ⟨status, found, best, solutions, written⟩ := closes_of_finishing run
    exact ⟨rfl, status, found, best, solutions, same ▸ written⟩

structure Ended (request : SolveRequest) (spec : SearchSpec) (t : SearchTree)
    (st : SearchState ProtocolReporter) (outcome : SolveOutcome) (after : Session) : Prop where
  fault : (t.run st).2.context.listener.fault = none
  status : outcome.status =
    SearchStatus.ofResult (t.run st).1 (searchesAll request.options spec)
      (t.run st).2.context.listener.limitReached t.isComplete
  found : outcome.found = decide (0 < (t.run st).2.context.listener.count)
  best : outcome.best = (t.run st).2.context.listener.last
  solutions : outcome.solutions = (t.run st).2.context.listener.kept.toList
  written : ∀ reporter, (t.run st).2.context.listener.reporter = some reporter →
    after.sink.taken = reporter.sink.taken ++ (request.ending outcome).toUTF8

/-- How a solve that had nothing to decide has ended: it has handed over the store as it was. -/
structure HandedOver (request : SolveRequest) (spec : SearchSpec) (session : Session)
    (outcome : SolveOutcome) : Prop where
  begun : begun? request spec session = none
  status : outcome.status = .trivial
  found : outcome.found = true
  best : ∃ opened, outcome.best = some ((listener request spec opened).nextSolution session.store)
  trivial : ∃ started opened, opening request spec session = .ok started opened ∧
    (built request spec opened).outcome = .ok .trivial

/-- A solve that returns has run a tree, or there was nothing to decide. -/
theorem ended_or_handedOver (solved : solve request spec session = .ok outcome after) :
    (∃ t st, begun? request spec session = some (t, st) ∧ Ended request spec t st outcome after) ∨
      HandedOver request spec session outcome := by
  rw [solve_eq] at solved
  obtain ⟨started, opened, opens, solved⟩ := bind_eq_ok.1 solved
  obtain ⟨searched, found, searches, closes⟩ := bind_eq_ok.1 solved
  obtain ⟨silent, closes⟩ := closes_of_closing closes
  cases made : (built request spec opened).outcome with
  | error e =>
    rw [search_of_error made] at searches
    cases searches
  | ok what =>
    cases what with
    | trivial =>
      rw [search_of_trivial made] at searches
      cases searches
      obtain ⟨seeds, -, handed⟩ := SearchSpec.exists_of_build_trivial made
      obtain ⟨count, -, -, -, last, -⟩ :=
        (listener request spec opened).accept_fields opened.store
      have accepted : (built request spec opened).context.listener =
        ((listener request spec opened).accept opened.store).2 := handed
      refine .inr ⟨begun?_of_ne_tree opens (by simp [made]), closes.status, ?_, ⟨opened, ?_⟩,
        started, opened, opens, made⟩
      · rw [closes.found, accepted, count]
        simp
      · rw [closes.best, accepted, last, store_of_opening opens]
    | tree t =>
      rw [search_of_tree made rfl] at searches
      cases searches
      refine .inl ⟨t, _, begun?_of_tree opens made, silent, closes.status, closes.found,
        closes.best, closes.solutions, fun reporter told => ?_⟩
      rw [closes.written]
      simp only [Session.after, told]

end Solving

end StagedSearch
