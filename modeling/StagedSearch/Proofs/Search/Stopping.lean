/-
# How a listener ends a search

A search hands its stores to the listener one by one, and it ends at the first one after which
the listener does not want to go on. Whatever the reason is, the limit of solutions or a report
that has failed, handing this store over is the last thing that the search does: no other
candidate is tried on the way back to the root, at whatever node.
-/

import StagedSearch.Proofs.Search.Course

namespace StagedSearch

namespace Listener

variable {ρ : Type} [Reporter ρ] {l : Listener ρ} {first later : List Store}

/-- The listener lets the search go on after each of some stores. -/
def HearsOut (l : Listener ρ) : List Store → Prop
  | [] => True
  | u :: rest => (l.accept u).1 = true ∧ (l.accept u).2.HearsOut rest

def StopsAtLast (l : Listener ρ) (stores : List Store) : Prop :=
  ∃ first u, stores = first ++ [u] ∧ l.HearsOut first ∧ ((l.acceptAll first).accept u).1 = false

theorem hearsOut_append :
    l.HearsOut (first ++ later) ↔ l.HearsOut first ∧ (l.acceptAll first).HearsOut later := by
  induction first generalizing l with
  | nil => exact (iff_of_eq (true_and _)).symm
  | cons u rest ih => exact (and_congr_right fun _ => ih).trans and_assoc.symm

theorem StopsAtLast.append (heard : l.HearsOut first)
    (stops : (l.acceptAll first).StopsAtLast later) : l.StopsAtLast (first ++ later) := by
  obtain ⟨between, u, rfl, heard', ends⟩ := stops
  refine ⟨first ++ between, u, (List.append_assoc _ _ _).symm,
    hearsOut_append.2 ⟨heard, heard'⟩, ?_⟩
  rwa [acceptAll_append]

/-- A store at which the listener asks to stop is the last one. -/
theorem eq_nil_of_not_goesOn {u : Store}
    (heard : l.HearsOut (first ++ u :: later) ∨ l.StopsAtLast (first ++ u :: later))
    (ends : ((l.acceptAll first).accept u).1 = false) : later = [] := by
  rcases heard with heard | ⟨before, w, same, heard, -⟩
  · have goesOn := (hearsOut_append.1 heard).2.1
    rw [ends] at goesOn
    cases goesOn
  · rcases List.eq_nil_or_concat later with rfl | ⟨between, x, rfl⟩
    · rfl
    · -- then the store is among those after which the search goes on
      have longer : first ++ u :: between = before := by
        rw [List.concat_eq_append, ← List.cons_append, ← List.append_assoc] at same
        exact (List.append_inj' same rfl).1
      subst longer
      have goesOn := (hearsOut_append.1 heard).2.1
      rw [ends] at goesOn
      cases goesOn

end Listener

/-- If the last step hands a store over, then there is no step after all stores. -/
theorem SearchStep.eq_nil_of_accept_last {ρ : Type} {start before after : List (SearchStep ρ)}
    {id : NodeId} {st : SearchState ρ} (ends : start ++ [.accept id st] = before ++ after)
    (enough : (accepted (before ++ after)).length ≤ (accepted before).length) : after = [] := by
  rcases List.eq_nil_or_concat after with none | ⟨between, step, rfl⟩
  · exact none
  · rw [List.concat_eq_append, ← List.append_assoc] at ends
    obtain ⟨-, last⟩ := List.append_inj' ends rfl
    obtain rfl := List.singleton_inj.1 last
    have again : (accepted [SearchStep.accept id st]).length = 1 := rfl
    simp only [List.concat_eq_append, accepted_append, List.length_append, again] at enough
    omega

namespace SearchTree

variable {ρ : Type} [Reporter ρ] {t : SearchTree} {frames : Nat} {task : SearchTask}
  {st : SearchState ρ} {steps : List (SearchStep ρ)} {outcome : Flow × SearchState ρ}

/-- What the flow of a search says about the listener: it has heard every store out, or it has
asked to stop at the last one, and nothing was done after that. -/
structure Heard (l : Listener ρ) (steps : List (SearchStep ρ)) (flow : Flow) : Prop where
  goesOn : flow ≠ .stop → l.HearsOut (SearchStep.accepted steps)
  stops : flow = .stop → l.StopsAtLast (SearchStep.accepted steps) ∧
    ∃ before id st', steps = before ++ [.accept id st']

/-- A search without solutions leaves nothing to say. -/
theorem heard_of_accepted_eq_nil {l : Listener ρ} (none : SearchStep.accepted steps = [])
    {flow : Flow} (goesOn : flow ≠ .stop) : Heard l steps flow where
  goesOn _ := by rw [none]; trivial
  stops stop := absurd stop goesOn

/-- Steps that hand nothing over may come before. -/
theorem Heard.after {l : Listener ρ} {flow : Flow} {later : List (SearchStep ρ)}
    (heard : Heard l later flow) (before : List (SearchStep ρ))
    (none : SearchStep.accepted before = []) :
    Heard l (before ++ later) flow where
  goesOn proceeds := by
    rw [SearchStep.accepted_append, none]
    exact heard.goesOn proceeds
  stops stop := by
    obtain ⟨stops, between, id, st', rfl⟩ := heard.stops stop
    rw [SearchStep.accepted_append, none]
    exact ⟨stops, before ++ between, id, st', (List.append_assoc _ _ _).symm⟩

/-- One search after another one that has let it go on. -/
theorem Heard.append {l : Listener ρ} {flow flow' : Flow} {first later : List (SearchStep ρ)}
    (heard : Heard l first flow) (proceeds : flow ≠ .stop)
    (heard' : Heard (l.acceptAll (SearchStep.accepted first)) later flow') :
    Heard l (first ++ later) flow' where
  goesOn proceeds' := by
    rw [SearchStep.accepted_append]
    exact Listener.hearsOut_append.2 ⟨heard.goesOn proceeds, heard'.goesOn proceeds'⟩
  stops stop := by
    obtain ⟨stops, between, id, st', rfl⟩ := heard'.stops stop
    refine ⟨?_, first ++ between, id, st', (List.append_assoc _ _ _).symm⟩
    rw [SearchStep.accepted_append]
    exact stops.append (heard.goesOn proceeds)

/-- Handing a store over is heard. -/
theorem heard_acceptAt (id : NodeId) (node : SearchNode) (st : SearchState ρ) :
    Heard st.context.listener [.accept id st] (st.acceptAt id node).1 := by
  rw [SearchState.acceptAt_eq]
  cases answer : (st.context.listener.accept st.store).1 with
  | true => exact ⟨fun _ => ⟨answer, trivial⟩, by simp⟩
  | false =>
    exact ⟨by simp, fun _ => ⟨⟨[], st.store, rfl, trivial, answer⟩, [], id, st, rfl⟩⟩

/-- A search ends at the first store at which the listener asks to stop. -/
theorem Course.heard (course : t.Course frames task st steps outcome) :
    Heard st.context.listener steps outcome.1 := by
  induction course with
  | spent | missing | emptied | late | pruned => exact heard_of_accepted_eq_nil rfl (by simp)
  | solved => exact heard_acceptAt _ _ _
  | descended _ _ _ _ ih => exact ih
  | branched _ _ listed _ ih => rwa [(SearchState.quiet_of_listed t listed).listener] at ih
  | failed _ _ inTime _ fails _ ih =>
    rw [SearchState.listener_of_decide fails,
      (SearchState.quiet_of_expired t inTime).listener] at ih
    exact ih.after [_, _] rfl
  | returned _ _ inTime _ enters below _ ihBelow ihLater =>
    have between := below.listener
    simp only at between
    rw [SearchState.listener_of_decide enters,
      (SearchState.quiet_of_expired t inTime).listener] at ihBelow between
    have later : Heard _ _ _ := between ▸ ihLater
    exact (ihBelow.append (by simp) later).after [_, _] rfl
  | ended _ _ inTime _ enters _ _ ih =>
    rw [SearchState.listener_of_decide enters,
      (SearchState.quiet_of_expired t inTime).listener] at ih
    exact ih.after [_, _] rfl

/-- The flow of a run, if there is something to search. -/
theorem Follows.exists_heard (follows : t.Follows st steps) :
    ∃ flow, Heard st.context.listener steps flow ∧
      (t.run st).1.stopped = Decidable.decide (flow = Flow.stop) := by
  have listener : (SearchState.started t st).context.listener = st.context.listener :=
    (SearchState.deadline?_context st.context).1
  cases follows with
  | empty none =>
    rw [SearchState.run_eq_of_empty (root?_eq_none_iff.1 none)]
    exact ⟨.proceed, heard_of_accepted_eq_nil rfl (by simp), rfl⟩
  | inconsistent found fails =>
    rw [run_of_inconsistent found fails]
    exact ⟨.proceed, heard_of_accepted_eq_nil rfl (by simp), rfl⟩
  | @searched root _ outcome found succeeds course =>
    rw [course.run_eq found succeeds]
    exact ⟨outcome.1, listener ▸ course.heard, rfl⟩

end SearchTree

end StagedSearch
