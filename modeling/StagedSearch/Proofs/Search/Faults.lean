/-
# Reports that fail

A listener that reports to a sink remembers the fault of a report that failed, and ends the search
with that. So the search over a failing sink is the search over one that never fails up to this
solution, what is asked of the sink is the same, and nothing more is asked afterwards.

The two searches are compared step by step. Their states differ in the sink only, as long as no
report has failed.
-/

import StagedSearch.Proofs.Output.Requests
import StagedSearch.Proofs.Search.Adjusted
import StagedSearch.Proofs.Search.Stopping

namespace StagedSearch

namespace Listener

variable {l : Listener ProtocolReporter} {names : Names} {sink after : Sink} {s : Store}
  {stores : List Store} {fault : OutputFault}

def reportTo (names : Names) (sink : Sink) (l : Listener ProtocolReporter) :
    Listener ProtocolReporter :=
  { l with reporter := some ⟨names, sink⟩ }

def silenced (l : Listener ProtocolReporter) : Listener ProtocolReporter :=
  { l with reporter := none }

/-- A listener that reports to a sink, and none of whose reports has failed. -/
structure Reporting (l : Listener ProtocolReporter) (names : Names) (sink : Sink) : Prop where
  fault : l.fault = none
  reporter : l.reporter = some ⟨names, sink⟩

structure Broken (l : Listener ProtocolReporter) (names : Names) (fault : OutputFault)
    (sink : Sink) : Prop where
  fault : l.fault = some fault
  reporter : l.reporter = some ⟨names, sink⟩

theorem Reporting.reportTo_eq (reporting : l.Reporting names sink) :
    l.reportTo names sink = l := by
  unfold reportTo
  rw [← reporting.reporter]

theorem report_of_granted (granted : sink.Grants (Protocol.solutionRequests names s) after)
    (solution : Solution) :
    Reporter.report (⟨names, sink⟩ : ProtocolReporter) s solution = (none, ⟨names, after⟩) := by
  have written : Protocol.writeSolution names s sink = .ok () after :=
    (congrFun (Protocol.writeSolution_eq names s) sink).trans granted
  simp only [Reporter.report, written]

theorem report_of_refused
    (refused : sink.Refuses (Protocol.solutionRequests names s) fault after)
    (solution : Solution) :
    Reporter.report (⟨names, sink⟩ : ProtocolReporter) s solution =
      (some fault, ⟨names, after⟩) := by
  have written : Protocol.writeSolution names s sink = .error fault after :=
    (congrFun (Protocol.writeSolution_eq names s) sink).trans refused
  simp only [Reporter.report, written]

/-- A report that is granted changes nothing but the sink. -/
theorem accept_reportTo (granted : sink.Grants (Protocol.solutionRequests names s) after)
    (l : Listener ProtocolReporter) :
    (l.reportTo names sink).accept s =
      ((l.silenced.accept s).1, (l.silenced.accept s).2.reportTo names after) := by
  simp only [Listener.accept, reportTo, silenced, tell, nextSolution, report_of_granted granted,
    Option.none_or]
  rfl

theorem Reporting.accept (reporting : l.Reporting names sink)
    (granted : sink.Grants (Protocol.solutionRequests names s) after) :
    (l.accept s).2.Reporting names after := by
  have same := accept_reportTo granted l
  rw [reporting.reportTo_eq] at same
  rw [same]
  exact ⟨reporting.fault, rfl⟩

/-- A report that is refused ends the search. -/
theorem Reporting.accept_of_refused (reporting : l.Reporting names sink)
    (refused : sink.Refuses (Protocol.solutionRequests names s) fault after) :
    (l.accept s).1 = false ∧ (l.accept s).2.Broken names fault after := by
  have same : l.accept s = (l.reportTo names sink).accept s := by rw [reporting.reportTo_eq]
  rw [same]
  simp only [Listener.accept, reportTo, tell, nextSolution, report_of_refused refused]
  exact ⟨Bool.and_false _, rfl, rfl⟩

/-- No store is handed over after one whose report has failed. -/
def EndsWithFault (l : Listener ProtocolReporter) (stores : List Store) : Prop :=
  ∀ before u later, stores = before ++ u :: later →
    ((l.acceptAll before).accept u).2.fault ≠ none → later = []

theorem EndsWithFault.tail {u : Store} (ends : l.EndsWithFault (u :: stores)) :
    (l.accept u).2.EndsWithFault stores :=
  fun before w later parts => ends (u :: before) w later (congrArg (u :: ·) parts)

/-- A listener that is heard out, or that stops at the last store, has not gone on after a fault. -/
theorem endsWithFault_of_heard (heard : l.HearsOut stores ∨ l.StopsAtLast stores) :
    l.EndsWithFault stores := by
  rintro before u later rfl failed
  refine eq_nil_of_not_goesOn heard ?_
  obtain ⟨fault, failed⟩ := Option.ne_none_iff_exists'.1 failed
  show (_ && ((l.acceptAll before).accept u).2.fault.isNone) = false
  rw [failed]
  exact Bool.and_false _

/-- What becomes of a listener is settled by what the sink makes of the requests. -/
theorem Reporting.acceptAll (reporting : l.Reporting names sink)
    (granted : sink.Grants (stores.flatMap (Protocol.solutionRequests names)) after) :
    (l.acceptAll stores).Reporting names after := by
  induction stores generalizing l sink with
  | nil =>
    cases granted
    exact reporting
  | cons u rest ih =>
    obtain ⟨between, first, later⟩ := Sink.grants_append.1 granted
    exact ih (reporting.accept first) later

theorem Reporting.acceptAll_of_refused (reporting : l.Reporting names sink)
    (ends : l.EndsWithFault stores)
    (refused : sink.Refuses (stores.flatMap (Protocol.solutionRequests names)) fault after) :
    (l.acceptAll stores).Broken names fault after := by
  induction stores generalizing l sink with
  | nil => exact absurd refused Sink.not_refuses_nil
  | cons u rest ih =>
    rcases Sink.refuses_append.1 refused with first | ⟨between, first, later⟩
    · have broken := (reporting.accept_of_refused first).2
      obtain rfl := ends [] u rest rfl (Option.ne_none_iff_exists'.2 ⟨fault, broken.fault⟩)
      exact broken
    · exact ih (reporting.accept first) ends.tail later

end Listener

namespace SearchState

variable {names : Names} {st u : SearchState ProtocolReporter}

def FaultEnds (outcome : Flow × SearchState ProtocolReporter) : Prop :=
  outcome.1 = .stop ∧ outcome.2.context.listener.fault ≠ none

/-- No report has failed, and a state differs from another one only in that its reports go to a
sink that never fails. -/
def SameButSink (names : Names) (st u : SearchState ProtocolReporter) : Prop :=
  ∃ endless : Sink, endless.Endless ∧ (∃ sink, st.context.listener.Reporting names sink) ∧
    u = st.adjust (Listener.reportTo names endless)

/-- Reporting to another sink and back changes nothing. -/
theorem adjust_reportTo {sink : Sink} (reporting : st.context.listener.Reporting names sink)
    (other : Sink) :
    (st.adjust (Listener.reportTo names other)).adjust (Listener.reportTo names sink) = st := by
  unfold SearchState.adjust Listener.reportTo
  rw [← reporting.reporter]

/-- A search with reports is the one over a sink that never fails, until a report fails. -/
theorem tracks_sameButSink (names : Names) : Tracks FaultEnds (SameButSink names) where
  toParallel := Parallel.exists fun endless => parallel_adjust
    (show ∀ l : Listener ProtocolReporter, (∃ sink, l.Reporting names sink) →
      (l.reportTo names endless).count = l.count from fun _ _ => rfl)
  goesOn _ early := nomatch early.1
  lost_setState _ _ early := early
  lost_popLevel early := early
  expired := by
    rintro st _ id ⟨endless, takes, reporting, rfl⟩
    rw [expired_adjust]
    rw [← (quiet_expired SearchTree.empty st id).listener] at reporting
    exact .inr ⟨rfl, endless, takes, reporting, rfl⟩
  acceptAt := by
    rintro st _ id node ⟨endless, takes, ⟨sink, reporting⟩, rfl⟩
    have kept : (st.acceptAt id node).2.context.listener =
        (st.context.listener.accept st.store).2 :=
      (setIncumbent_keeps (st.handed id) node).2.2
    rcases sink.grants_or_refuses (Protocol.solutionRequests names st.store) with
      ⟨after, granted⟩ | ⟨fault, after, refused⟩
    · obtain ⟨endless', granted', takes'⟩ :=
        takes.exists_grants (Protocol.solutionRequests names st.store)
      have accept : (st.context.listener.reportTo names endless).accept st.store =
          ((st.context.listener.accept st.store).1,
            (st.context.listener.accept st.store).2.reportTo names endless') := by
        have first := Listener.accept_reportTo granted st.context.listener
        rw [reporting.reportTo_eq] at first
        rw [Listener.accept_reportTo granted', first]
        rfl
      have same : (st.adjust (Listener.reportTo names endless)).acceptAt id node =
          ((st.acceptAt id node).1,
            (st.acceptAt id node).2.adjust (Listener.reportTo names endless')) :=
        acceptAt_adjust id node rfl accept rfl
      rw [same]
      exact .inr ⟨rfl, endless', takes', ⟨after, kept ▸ reporting.accept granted⟩, rfl⟩
    · obtain ⟨ends, broken⟩ := reporting.accept_of_refused refused
      refine .inl ⟨?_, ?_⟩
      · rw [acceptAt_eq, ends]
        rfl
      · rw [kept, broken.fault]
        exact Option.some_ne_none fault

end SearchState

namespace SearchTree

variable {t : SearchTree} {st : SearchState ProtocolReporter} {names : Names}
  {steps whole : List (SearchStep ProtocolReporter)} {sink endless after : Sink}
  {fault : OutputFault}

/-- A run hands no store over after one whose report has failed. -/
theorem Follows.endsWithFault (follows : t.Follows st steps) :
    st.context.listener.EndsWithFault (SearchStep.accepted steps) := by
  obtain ⟨flow, heard, -⟩ := follows.exists_heard
  refine Listener.endsWithFault_of_heard ?_
  by_cases stop : flow = .stop
  · exact .inr (heard.stops stop).1
  · exact .inl (heard.goesOn stop)

/-- What is asked of the sink in a run that takes some steps. -/
def requestsOf (names : Names) (steps : List (SearchStep ProtocolReporter)) : List SinkRequest :=
  (SearchStep.accepted steps).flatMap (Protocol.solutionRequests names)

/-- The steps of a run with reports, beside those of the same run over an endless sink: they hand
over the first of the same stores, and all of them if the sink grants what they ask for. -/
theorem Follows.exists_prefix (silent : st.context.listener.fault = none)
    (takes : endless.Endless)
    (follows : t.Follows (st.adjust (Listener.reportTo names endless)) whole) (sink : Sink) :
    ∃ steps later, t.Follows (st.adjust (Listener.reportTo names sink)) steps ∧
      SearchStep.accepted steps ++ later = SearchStep.accepted whole ∧
      ∀ after, sink.Grants (requestsOf names steps) after → later = [] ∧
        t.run (st.adjust (Listener.reportTo names sink)) =
          ((t.run (st.adjust (Listener.reportTo names endless))).1,
            (t.run (st.adjust (Listener.reportTo names endless))).2.adjust
              (Listener.reportTo names after)) := by
  have reporting : (st.adjust (Listener.reportTo names sink)).context.listener.Reporting names
      sink := ⟨silent, rfl⟩
  have same : SearchState.SameButSink names (st.adjust (Listener.reportTo names sink))
      (st.adjust (Listener.reportTo names endless)) := ⟨endless, takes, ⟨sink, reporting⟩, rfl⟩
  have begins : SearchState.SameButSink names
      (SearchState.started t (st.adjust (Listener.reportTo names sink)))
      (SearchState.started t (st.adjust (Listener.reportTo names endless))) := by
    rw [started_adjust, started_adjust]
    have listener : (SearchState.started t st).context.listener = st.context.listener :=
      (SearchState.deadline?_context st.context).1
    exact ⟨endless, takes, ⟨sink, (congrArg Listener.fault listener).trans silent, rfl⟩, rfl⟩
  obtain ⟨steps, follows'⟩ := t.exists_follows (st.adjust (Listener.reportTo names sink))
  obtain ⟨whole', again, tracked, result⟩ :=
    follows'.exists_tracked (SearchState.tracks_sameButSink names) same begins
  obtain rfl := follows.unique again
  obtain ⟨later, parts⟩ := tracked.first
  refine ⟨steps, later, follows', parts, fun after granted => ?_⟩
  have told := reporting.acceptAll granted
  rw [← follows'.listener] at told
  have found : ¬ SearchState.FaultEnds
      ((t.run (st.adjust (Listener.reportTo names sink))).1.flow,
        (t.run (st.adjust (Listener.reportTo names sink))).2) :=
    fun failed => failed.2 told.fault
  obtain ⟨accepted, -, endless', -, -, final⟩ := tracked.all found
  refine ⟨?_, Prod.ext (result found).symm ?_⟩
  · rwa [accepted, List.append_right_eq_self] at parts
  · show (t.run (st.adjust (Listener.reportTo names sink))).2 = SearchState.adjust
      (Listener.reportTo names after) (t.run (st.adjust (Listener.reportTo names endless))).2
    rw [show (t.run (st.adjust (Listener.reportTo names endless))).2 = _ from final,
      SearchState.adjust_reportTo told]

/-- If the sink grants all that is asked of an endless sink, then the run is the same and hands
over the same stores. -/
theorem Follows.exists_of_grants (silent : st.context.listener.fault = none)
    (takes : endless.Endless)
    (follows : t.Follows (st.adjust (Listener.reportTo names endless)) whole)
    (granted : sink.Grants (requestsOf names whole) after) :
    (∃ steps, t.Follows (st.adjust (Listener.reportTo names sink)) steps ∧
      SearchStep.accepted steps = SearchStep.accepted whole) ∧
      t.run (st.adjust (Listener.reportTo names sink)) =
        ((t.run (st.adjust (Listener.reportTo names endless))).1,
          (t.run (st.adjust (Listener.reportTo names endless))).2.adjust
            (Listener.reportTo names after)) := by
  obtain ⟨steps, later, follows', parts, all⟩ := follows.exists_prefix silent takes sink
  rw [requestsOf, ← parts, List.flatMap_append] at granted
  obtain ⟨between, first, rest⟩ := Sink.grants_append.1 granted
  obtain ⟨rfl, same⟩ := all between first
  rw [List.append_nil] at parts
  cases rest
  exact ⟨⟨steps, follows', parts⟩, same⟩

/-- If the sink refuses something of that, then the run ends with the fault. -/
theorem Follows.run_of_refuses (silent : st.context.listener.fault = none)
    (takes : endless.Endless)
    (follows : t.Follows (st.adjust (Listener.reportTo names endless)) whole)
    (refused : sink.Refuses (requestsOf names whole) fault after) :
    (t.run (st.adjust (Listener.reportTo names sink))).2.context.listener.Broken names fault
      after := by
  obtain ⟨steps, later, follows', parts, all⟩ := follows.exists_prefix silent takes sink
  rw [requestsOf, ← parts, List.flatMap_append] at refused
  have reporting : (st.adjust (Listener.reportTo names sink)).context.listener.Reporting names
      sink := ⟨silent, rfl⟩
  rcases Sink.refuses_append.1 refused with first | ⟨between, granted, rest⟩
  · rw [follows'.listener]
    exact reporting.acceptAll_of_refused follows'.endsWithFault first
  · obtain ⟨rfl, -⟩ := all between granted
    exact absurd rest Sink.not_refuses_nil

end SearchTree

end StagedSearch
