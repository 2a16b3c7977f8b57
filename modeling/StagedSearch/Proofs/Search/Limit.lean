/-
# Limits of solutions

A listener that stops after a number of solutions takes part in the same search as one that never
stops, until it has that many. So the run with the limit reports the first solutions of the run
without it, under the same numbers, and it stops exactly if there are enough of them.

Nothing is assumed of the tree, the store, the goal or the clock, since both runs begin in the
same state: what a random order or a late reading does to one of them it does to the other one.
-/

import StagedSearch.Proofs.Search.Adjusted
import StagedSearch.Proofs.Search.Deadline
import StagedSearch.Proofs.Search.Stopping

namespace StagedSearch

namespace Listener

variable {ρ : Type} {l : Listener ρ} {most : Nat}

def limitedTo (most : Nat) (l : Listener ρ) : Listener ρ := { l with limit := some most }

def unbounded (l : Listener ρ) : Listener ρ := { l with limit := none, limitReached := false }

/-- A listener that has not accepted anything. -/
structure Fresh (l : Listener ρ) : Prop where
  count : l.count = 0
  limitReached : l.limitReached = false

theorem fresh_all (limit : Option Nat) : (all limit : Listener ρ).Fresh := ⟨rfl, rfl⟩

variable [Reporter ρ]

/-- A listener that has a limit, knows whether it has reached it, and stops for no other reason. -/
structure Counting (most : Nat) (l : Listener ρ) : Prop where
  limit : l.limit = some most
  reached : l.limitReached = decide (most ≤ l.count)
  endless : l.unbounded.Endless

theorem counting_limitedTo (endless : l.Endless) (fresh : l.Fresh) (positive : 1 ≤ most) :
    Counting most (l.limitedTo most) where
  limit := rfl
  reached := by
    show l.limitReached = decide (most ≤ l.count)
    rw [fresh.limitReached, fresh.count, decide_eq_false (by omega)]
  endless := ⟨rfl, endless.fault, endless.reporter⟩

/-- Taking the limit away again gives the listener back. -/
theorem unbounded_limitedTo (endless : l.Endless) (fresh : l.Fresh) :
    (l.limitedTo most).unbounded = l := by
  unfold unbounded limitedTo
  rw [← endless.limit, ← fresh.limitReached]

/-- Without the limit a listener accepts a store as it does with the limit. -/
theorem accept_unbounded (l : Listener ρ) (u : Store) :
    (l.unbounded.accept u).2 = (l.accept u).2.unbounded := by
  unfold accept unbounded tell
  cases l.reporter <;> rfl

/-- A counting listener asks to stop once it has reached its limit. -/
theorem Counting.accept (counting : Counting most l) (u : Store) :
    (l.accept u).1 = !decide (most ≤ l.count + 1) ∧ Counting most (l.accept u).2 := by
  have endless := (counting.endless.accept u).2
  rw [accept_unbounded] at endless
  have fault : (l.accept u).2.fault = none := endless.fault
  have answer : (l.accept u).1 =
      (!decide (most ≤ l.count + 1) && (l.accept u).2.fault.isNone) := by
    unfold Listener.accept tell
    cases l.reporter <;> simp only [counting.limit]
  have kept : (l.accept u).2.limit = some most ∧
      (l.accept u).2.limitReached = decide (most ≤ l.count + 1) := by
    unfold Listener.accept tell
    cases l.reporter <;> simp only [counting.limit, and_self]
  refine ⟨by rw [answer, fault, Option.isNone_none, Bool.and_true], kept.1, ?_, endless⟩
  rw [kept.2, (l.accept_fields u).1]

theorem Counting.acceptAll (counting : Counting most l) (stores : List Store) :
    Counting most (l.acceptAll stores) := by
  induction stores generalizing l with
  | nil => exact counting
  | cons u rest ih => exact ih (counting.accept u).2

theorem count_acceptAll (l : Listener ρ) (stores : List Store) :
    (l.acceptAll stores).count = l.count + stores.length := by
  rw [(l.reports_acceptAll stores).count, length_solutions]

/-- The solutions that are made of some stores do not depend on the limit. -/
theorem solutions_unbounded (l : Listener ρ) (stores : List Store) :
    l.unbounded.solutions stores = l.solutions stores := by
  induction stores generalizing l with
  | nil => rfl
  | cons u rest ih =>
    refine congrArg (l.nextSolution u :: ·) ?_
    rw [accept_unbounded, ih]

theorem solutions_take (l : Listener ρ) (number : Nat) (stores : List Store) :
    l.solutions (stores.take number) = (l.solutions stores).take number := by
  induction stores generalizing l number with
  | nil => simp [solutions]
  | cons u rest ih =>
    cases number with
    | zero => rfl
    | succ number => exact congrArg (l.nextSolution u :: ·) (ih _ _)

/-- A counting listener hears out as many stores as stay below its limit. -/
theorem Counting.lt_of_hearsOut (counting : Counting most l) (below : l.count < most)
    {stores : List Store} (heard : l.HearsOut stores) : l.count + stores.length < most := by
  induction stores generalizing l with
  | nil => exact below
  | cons u rest ih =>
    obtain ⟨goesOn, counting'⟩ := counting.accept u
    have count := (l.accept_fields u).1
    have more : l.count + 1 < most := by simpa [goesOn] using heard.1
    have later := ih counting' (count ▸ more) heard.2
    rw [count] at later
    rw [List.length_cons]
    omega

/-- A counting listener stops at the store that reaches its limit. -/
theorem Counting.eq_of_stopsAtLast (counting : Counting most l) (below : l.count < most)
    {stores : List Store} (stops : l.StopsAtLast stores) : l.count + stores.length = most := by
  obtain ⟨first, u, rfl, heard, ends⟩ := stops
  have before := counting.lt_of_hearsOut below heard
  have reaches : most ≤ l.count + first.length + 1 := by
    simpa [((counting.acceptAll first).accept u).1, count_acceptAll] using ends
  rw [List.length_append, List.length_singleton]
  omega

end Listener

namespace SearchState

variable {ρ : Type} [Reporter ρ]

/-- A run with a limit of solutions is cut short when it stops. -/
theorem cutsShort_limit (most : Nat) :
    CutsShort .stop fun st u : SearchState ρ =>
      st.context.listener.Counting most ∧ u = st.adjust Listener.unbounded where
  toParallel := parallel_adjust fun _ _ => rfl
  ends := nofun
  expired := by
    rintro st _ id ⟨counting, rfl⟩
    exact .inr (expired_parallel counting id)
  acceptAt := by
    rintro st _ id node ⟨counting, rfl⟩
    obtain ⟨answer, counting'⟩ := counting.accept st.store
    have kept : (st.acceptAt id node).2.context.listener =
        (st.context.listener.accept st.store).2 :=
      (setIncumbent_keeps (st.handed id) node).2.2
    cases goesOn : (st.context.listener.accept st.store).1 with
    | false =>
      rw [acceptAt_eq, goesOn]
      exact .inl rfl
    | true =>
      have endless : st.context.listener.unbounded.Endless := counting.endless
      have same : (st.adjust Listener.unbounded).acceptAt id node =
          ((st.acceptAt id node).1, (st.acceptAt id node).2.adjust Listener.unbounded) :=
        acceptAt_adjust id node rfl (Prod.ext ((endless.accept _).1.trans goesOn.symm)
          (st.context.listener.accept_unbounded _)) rfl
      rw [same, kept]
      exact .inr ⟨rfl, counting', rfl⟩

end SearchState

namespace SearchTree

variable {ρ : Type} [Reporter ρ] {t : SearchTree} {st : SearchState ρ} {most : Nat}
  {steps : List (SearchStep ρ)}

/-- What a run that stops after a number of solutions has done, compared with a run that does
not: the first solutions are the same, under the same numbers; it stops because of the limit
exactly if there are enough of them; and the last of them is the last thing that it does. -/
structure StopsAfter (t : SearchTree) (st : SearchState ρ) (most : Nat)
    (steps : List (SearchStep ρ)) (found all : List Solution) : Prop where
  first : found = all.take most
  numbers : found.map Solution.number = List.range' 1 (min most all.length)
  stopped : (t.run st).1.stopped = true ↔ most ≤ all.length
  limitReached : (t.run st).2.context.listener.limitReached = true ↔ most ≤ all.length
  ends : ∀ before after, steps = before ++ after →
    most ≤ (SearchStep.accepted before).length → after = []

/-- A run with a limit of solutions takes the first steps of the run without one, and all of them
if it does not stop. -/
theorem Follows.exists_unbounded (counting : st.context.listener.Counting most)
    (follows : t.Follows st steps) : ∃ whole, t.Follows (st.adjust Listener.unbounded) whole ∧
      SearchStep.accepted steps <+: SearchStep.accepted whole ∧
      ((t.run st).1.stopped = false →
        SearchStep.accepted whole = SearchStep.accepted steps) := by
  have listener : (SearchState.started t st).context.listener = st.context.listener :=
    (SearchState.deadline?_context st.context).1
  obtain ⟨whole, follows', tracked, -⟩ := follows.exists_tracked
    (SearchState.cutsShort_limit most).tracks (And.intro counting rfl)
    (And.intro (listener ▸ counting) (started_adjust _))
  refine ⟨whole, follows', tracked.first, fun goesOn => (tracked.all fun stop => ?_).1⟩
  have stop : (t.run st).1.flow = .stop := stop
  unfold SearchResult.flow at stop
  rw [goesOn] at stop
  split at stop <;> cases stop

/-- A run that stops has reached the limit with its last step, and one that does not stop stays
below the limit. -/
theorem Follows.stops_iff (counting : st.context.listener.Counting most)
    (below : st.context.listener.count < most) (follows : t.Follows st steps) :
    ((t.run st).1.stopped = true →
      st.context.listener.count + (SearchStep.accepted steps).length = most ∧
        ∃ before id st', steps = before ++ [.accept id st']) ∧
    ((t.run st).1.stopped = false →
      st.context.listener.count + (SearchStep.accepted steps).length < most) := by
  obtain ⟨flow, heard, stopped⟩ := follows.exists_heard
  rw [stopped]
  refine ⟨fun stop => ?_, fun goesOn => ?_⟩
  · obtain ⟨stops, last⟩ := heard.stops (of_decide_eq_true stop)
    exact ⟨counting.eq_of_stopsAtLast below stops, last⟩
  · exact counting.lt_of_hearsOut below (heard.goesOn (of_decide_eq_false goesOn))

/-- From the start, as many stores are handed over as the limit allows. -/
theorem Follows.exists_take (counting : st.context.listener.Counting most)
    (count : st.context.listener.count = 0) (positive : 1 ≤ most) (follows : t.Follows st steps) :
    ∃ whole, t.Follows (st.adjust Listener.unbounded) whole ∧
      SearchStep.accepted steps = (SearchStep.accepted whole).take most ∧
      ((t.run st).1.stopped = true ↔ most ≤ (SearchStep.accepted whole).length) := by
  obtain ⟨whole, follows', first, same⟩ := follows.exists_unbounded counting
  obtain ⟨stops, goesOn⟩ := follows.stops_iff counting (count.trans_lt positive)
  rw [count, Nat.zero_add] at stops goesOn
  refine ⟨whole, follows', ?_⟩
  cases stopped : (t.run st).1.stopped with
  | true =>
    have length := (stops stopped).1
    have taken := List.prefix_iff_eq_take.1 first
    rw [length] at taken
    exact ⟨taken, iff_of_true rfl (length ▸ first.length_le)⟩
  | false =>
    have length := goesOn stopped
    rw [same stopped, List.take_of_length_le length.le]
    exact ⟨rfl, iff_of_false nofun (Nat.not_le.2 length)⟩

/-- Once as many stores are handed over as the limit allows, the run does nothing more. -/
theorem Follows.eq_nil_of_limit (counting : st.context.listener.Counting most)
    (count : st.context.listener.count = 0) (positive : 1 ≤ most) (follows : t.Follows st steps)
    {before after : List (SearchStep ρ)} (parts : steps = before ++ after)
    (enough : most ≤ (SearchStep.accepted before).length) : after = [] := by
  obtain ⟨stops, goesOn⟩ := follows.stops_iff counting (count.trans_lt positive)
  rw [count, Nat.zero_add] at stops goesOn
  have stopped : (t.run st).1.stopped = true := by
    by_contra still
    have fewer := goesOn (Bool.eq_false_iff.2 still)
    rw [parts, SearchStep.accepted_append, List.length_append] at fewer
    omega
  obtain ⟨length, start, id, st', ends⟩ := stops stopped
  exact SearchStep.eq_nil_of_accept_last (ends.symm.trans parts) (parts ▸ length.trans_le enough)

/-- A run with a limit of solutions reports the first ones of the run without a limit, as many
as the limit allows, and it stops exactly if there are that many. -/
theorem stopsAfter_limit (endless : st.context.listener.Endless)
    (fresh : st.context.listener.Fresh) (positive : 1 ≤ most) :
    ∃ (steps whole : List (SearchStep ρ)) (found all : List Solution),
      t.Reports (st.adjust (Listener.limitedTo most)) steps found ∧ t.Reports st whole all ∧
      SearchStep.accepted steps = (SearchStep.accepted whole).take most ∧
      t.StopsAfter (st.adjust (Listener.limitedTo most)) most steps found all := by
  have counting : (st.adjust (Listener.limitedTo most)).context.listener.Counting most :=
    Listener.counting_limitedTo endless fresh positive
  have unbounded : (st.adjust (Listener.limitedTo most)).adjust Listener.unbounded = st := by
    unfold SearchState.adjust
    rw [Listener.unbounded_limitedTo endless fresh]
  have count : (st.adjust (Listener.limitedTo most)).context.listener.count = 0 := fresh.count
  obtain ⟨steps, follows⟩ := t.exists_follows (st.adjust (Listener.limitedTo most))
  obtain ⟨whole, follows', accepted, stopped⟩ := follows.exists_take counting count positive
  rw [unbounded] at follows'
  have reports := follows.reports
  have reports' := follows'.reports
  have unlimited : (st.adjust (Listener.limitedTo most)).context.listener.solutions =
      st.context.listener.solutions := by
    funext stores
    rw [← Listener.solutions_unbounded]
    exact congrArg (fun u => u.context.listener.solutions stores) unbounded
  rw [unlimited] at reports
  refine ⟨steps, whole, _, _, reports, reports', accepted, ?_, ?_, ?_, ?_,
    fun _ _ parts enough => follows.eq_nil_of_limit counting count positive parts enough⟩
  · rw [accepted, Listener.solutions_take]
  · rw [reports.reports.numbers, count, Listener.length_solutions, Listener.length_solutions,
      accepted, List.length_take]
  · rw [stopped, Listener.length_solutions]
  · have reached := (counting.acceptAll (SearchStep.accepted steps)).reached
    rw [follows.listener, reached, decide_eq_true_iff, Listener.count_acceptAll, count,
      Nat.zero_add, accepted, List.length_take, Listener.length_solutions]
    omega

/-- Three of four solutions are reported, and the last one of them is not the end of a node. -/
theorem stopsAfter_limit_three :
    ∃ (t : SearchTree) (st : SearchState NoReporter) (steps whole : List (SearchStep NoReporter))
      (found all : List Solution), st.context.listener = Listener.all none ∧
      (st.adjust (Listener.limitedTo 3)).context.listener = Listener.all (some 3) ∧
      t.Reports (st.adjust (Listener.limitedTo 3)) steps found ∧ t.Reports st whole all ∧
      SearchStep.accepted steps = (SearchStep.accepted whole).take 3 ∧
      t.StopsAfter (st.adjust (Listener.limitedTo 3)) 3 steps found all ∧
      all.length = 4 ∧ found.length = 3 ∧
      (t.run (st.adjust (Listener.limitedTo 3))).1.stopped = true := by
  let s := StoreOperation.applyAll Store.empty [.declareBool "x", .declareBool "y"]
  let t := SearchTree.ofStages none
    [⟨⟨.int, [⟨0⟩], .inputOrder, .min, .complete, .ascending⟩, .explicit⟩,
      ⟨⟨.int, [⟨1⟩], .inputOrder, .min, .complete, .ascending⟩, .completion⟩]
  let st : SearchState NoReporter :=
    ⟨Progress.ofTree t, s, Context.ofListener (Listener.all none)⟩
  have endless : st.context.listener.Endless := Listener.endless_of_reporter_none rfl rfl rfl
  obtain ⟨steps, whole, found, all, reports, reports', first, stops⟩ :=
    stopsAfter_limit (t := t) endless (Listener.fresh_all none) (show 1 ≤ 3 by decide)
  have count' : (t.run st).2.context.listener.count = 4 := by decide +kernel
  have length' := reports'.reports.count.symm.trans count'
  rw [show st.context.listener.count = 0 from rfl, Nat.zero_add] at length'
  refine ⟨t, st, steps, whole, found, all, rfl, rfl, reports, reports', first, stops, length', ?_,
    stops.stopped.2 (by omega)⟩
  rw [stops.first, List.length_take, length']
  rfl

end SearchTree

end StagedSearch
