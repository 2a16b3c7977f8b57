/-
# Stable tables

A table is stable for a constraint when its rule finds nothing to narrow. What that means is
written down here for each constraint in terms of bounds and decided values
(`Constraint.Stable`), apart from the rule; a rule that reports no change has met it.

A stable table is also what a rule can never narrow away: on every larger table the rule
succeeds and what it leaves is still larger. No rule is monotone by itself here. The bounds
of a sum are read once and then used although they have moved on, and forward checking
looks at a place only when its turn comes. What all rules have in common is this weaker
fact, and it is enough for everything that follows.
-/

import StagedSearch.Proofs.Store.Steps

namespace StagedSearch

/-- The upper bound of the negated values of a domain, from its lower bound. The negative of
the least value of the range is moved into the range. -/
def Signed64.opposite (low : Int) : Int := (checked (-low)).getD greatest

/-- Among values of the range a larger lower bound gives a smaller upper bound. -/
theorem Signed64.opposite_anti {low lower : Int} (inside : InRange low)
    (inside' : InRange lower) (le : lower ≤ low) : opposite low ≤ opposite lower := by
  have value {v : Int} (inRange : InRange v) : opposite v = min greatest (-v) := by
    unfold opposite
    by_cases fits : InRange (-v)
    · rw [checked_eq_some_iff.2 ⟨fits, rfl⟩]
      unfold InRange at fits
      simp only [Option.getD_some]
      omega
    · rw [checked_eq_none_iff.2 fits]
      unfold InRange least greatest at *
      simp only [Option.getD_none]
      omega
  rw [value inside, value inside']
  omega

theorem Signed64.clamp_mono {low high : Int} (le : low ≤ high) : clamp low ≤ clamp high := by
  unfold clamp
  omega

namespace DomainTable

/-- Every integer that a variable can take lies in the signed range. -/
def InRange (t : DomainTable) : Prop := ∀ var value, t.Holds var value → Signed64.InRange value

/-- Neither of two variables can take the value that the other one is decided to. -/
def Apart (t : DomainTable) (x y : VarId) : Prop :=
  (∀ value, t.Decides x value → ¬ t.Holds y value) ∧
    ∀ value, t.Decides y value → ¬ t.Holds x value

end DomainTable

/-- What a constraint asks of the bounds and the decided values of a table. -/
def Constraint.Stable (t : DomainTable) : Constraint → Prop
  | negation x y => ∃ xMin xMax yMin yMax, t.Spans x xMin xMax ∧ t.Spans y yMin yMax ∧
      (Signed64.InRange (-yMax) ∧ -yMax ≤ xMin ∧ xMax ≤ Signed64.opposite yMin) ∧
      (Signed64.InRange (-xMax) ∧ -xMax ≤ yMin ∧ yMax ≤ Signed64.opposite xMin) ∧
      ∀ value, t.Decides y value → Signed64.InRange (-value) ∧ xMin = -value ∧ xMax = -value
  | notEqual x y => (∃ d, t.int? x = some d) ∧ (∃ d, t.int? y = some d) ∧ t.Apart x y
  | allDifferent vars => (∀ x ∈ vars, ∃ d, t.int? x = some d) ∧ vars.Pairwise t.Apart
  | lessThan x y => ∃ xMin xMax yMin yMax, t.Spans x xMin xMax ∧ t.Spans y yMin yMax ∧
      (Signed64.InRange (yMax - 1) ∧ Signed64.least ≤ xMin ∧ xMax ≤ yMax - 1) ∧
      Signed64.InRange (xMin + 1) ∧ xMin + 1 ≤ yMin ∧ yMax ≤ Signed64.greatest
  | sumEquals terms total => ∃ spans totalMin totalMax,
      List.Forall₂ (fun x (span : Int × Int) => t.Spans x span.1 span.2) terms spans ∧
      t.Spans total totalMin totalMax ∧
      (Signed64.clamp (sumOf (spans.map Prod.fst)) ≤ totalMin ∧
        totalMax ≤ Signed64.clamp (sumOf (spans.map Prod.snd))) ∧
      ∀ span ∈ spans,
        Signed64.clamp (totalMin - (sumOf (spans.map Prod.snd) - span.2)) ≤ span.1 ∧
          span.2 ≤ Signed64.clamp (totalMax - (sumOf (spans.map Prod.fst) - span.1))

/-! ## Bounds and values -/

namespace DomainTable

variable {t u : DomainTable} {var : VarId}

theorem Spans.unique {low high low' high' : Int} (first : t.Spans var low high)
    (second : t.Spans var low' high') : low = low' ∧ high = high' := by
  obtain ⟨d, here, least, greatest⟩ := first
  obtain ⟨d', here', least', greatest'⟩ := second
  obtain rfl : d = d' := Option.some.inj (here.symm.trans here')
  exact ⟨Option.some.inj (least.symm.trans least'),
    Option.some.inj (greatest.symm.trans greatest')⟩

theorem Spans.holds {low high : Int} (spans : t.Spans var low high) (canonical : t.Canonical) :
    t.Holds var low ∧ t.Holds var high := by
  obtain ⟨d, here, least, greatest⟩ := spans
  have formed := canonical.int? here
  exact ⟨⟨d, here, (formed.min?_eq_some_iff.1 least).1⟩,
    ⟨d, here, (formed.max?_eq_some_iff.1 greatest).1⟩⟩

theorem Spans.bounds {low high value : Int} (spans : t.Spans var low high)
    (canonical : t.Canonical) (holds : t.Holds var value) : low ≤ value ∧ value ≤ high := by
  obtain ⟨d, here, least, greatest⟩ := spans
  obtain ⟨d', here', inside⟩ := holds
  obtain rfl : d = d' := Option.some.inj (here.symm.trans here')
  have formed := canonical.int? here
  exact ⟨(formed.min?_eq_some_iff.1 least).2 value inside,
    (formed.max?_eq_some_iff.1 greatest).2 value inside⟩

theorem Decides.holds_iff {value other : Int} (decides : t.Decides var value)
    (canonical : t.Canonical) : t.Holds var other ↔ other = value := by
  obtain ⟨d, here, only⟩ := decides
  have same := ((canonical.int? here).value?_eq_some_iff.1 only) other
  constructor
  · rintro ⟨d', here', inside⟩
    obtain rfl : d = d' := Option.some.inj (here.symm.trans here')
    exact same.1 inside
  · intro equal
    exact ⟨d, here, same.2 equal⟩

theorem Within.holds (within : t.Within u) {value : Int} (holds : t.Holds var value) :
    u.Holds var value := by
  obtain ⟨d, here, inside⟩ := holds
  obtain ⟨e, there, larger⟩ := within.int? here
  exact ⟨e, there, larger value inside⟩

theorem Within.inRange (within : t.Within u) (inRange : u.InRange) : t.InRange :=
  fun var value holds => inRange var value (within.holds holds)

end DomainTable

namespace Narrowing

variable {t u : DomainTable} {var x y : VarId}

theorem restrict_eq_ok_false {min max : Int} (canonical : t.Canonical)
    (run : restrict var min max t = .ok false u) :
    u = t ∧ ∃ low high, t.Spans var low high ∧ min ≤ low ∧ high ≤ max := by
  obtain rfl := (carries_restrict var min max).eq_of_down canonical run
  refine ⟨rfl, ?_⟩
  obtain ⟨d, e, here, there, filled, left⟩ := restrict_eq_ok canonical run
  obtain rfl : d = e := Option.some.inj (here.symm.trans there)
  have formed := canonical.int? here
  obtain ⟨low, high, least, greatest⟩ := formed.exists_bounds filled
  refine ⟨low, high, ⟨d, here, least, greatest⟩, ?_, ?_⟩
  · exact ((left low).1 (formed.min?_eq_some_iff.1 least).1).2.1
  · exact ((left high).1 (formed.max?_eq_some_iff.1 greatest).1).2.2

theorem remove_eq_ok_false {value : Int} (canonical : t.Canonical)
    (run : remove var value t = .ok false u) : u = t ∧ ¬ t.Holds var value := by
  obtain rfl := (carries_remove var value).eq_of_down canonical run
  obtain ⟨d, e, here, there, left⟩ := remove_eq_ok canonical run
  obtain rfl : d = e := Option.some.inj (here.symm.trans there)
  refine ⟨rfl, ?_⟩
  rintro ⟨d', here', inside⟩
  obtain rfl : d = d' := Option.some.inj (here.symm.trans here')
  exact ((left value).1 inside).1 rfl

theorem negatedBounds_eq_ok {low high : Int} {bounds : Int × Int} :
    negatedBounds low high t = .ok bounds u ↔
      Signed64.InRange (-high) ∧ bounds = (-high, Signed64.opposite low) ∧ t = u := by
  simp only [negatedBounds, bind_eq_ok, require_eq_ok, pure_eq_ok, Signed64.checked_eq_some_iff]
  constructor
  · rintro ⟨a, _, ⟨⟨inRange, rfl⟩, rfl⟩, rfl, rfl⟩
    exact ⟨inRange, rfl, rfl⟩
  · rintro ⟨inRange, rfl, rfl⟩
    exact ⟨-high, t, ⟨⟨inRange, rfl⟩, rfl⟩, rfl, rfl⟩

/-! ## Exact flags of the rules -/

theorem carries_negation (x y : VarId) : Carries false (negation x y) := by
  refine .after_read (reads_bounds y) fun ends => ?_
  refine .after_read (reads_negatedBounds _ _) fun limits => ?_
  refine (carries_restrict x _ _).bind fun first => ?_
  refine .after_read (reads_bounds x) fun ends' => ?_
  refine .after_read (reads_negatedBounds _ _) fun limits' => ?_
  refine (carries_restrict y _ _).bind fun second => ?_
  refine .after_read (reads_value? y) fun decided => ?_
  cases decided with
  | none => simpa using carries_pure (first || second)
  | some v =>
    refine .after_read (reads_require _) fun opposite => ?_
    refine (carries_restrict x _ _).bind fun third => ?_
    simpa using carries_pure (first || second || third)

theorem carries_removeDecided (x y : VarId) : Carries false (removeDecided x y) := by
  refine .after_read (reads_value? x) fun decided => ?_
  cases decided with
  | none => exact carries_pure false
  | some v => exact carries_remove y v

theorem carries_notEqual (x y : VarId) : Carries false (notEqual x y) := by
  refine (carries_removeDecided x y).bind fun first => ?_
  refine (carries_removeDecided y x).bind fun second => ?_
  simpa using carries_pure (first || second)

theorem carries_separate (before vars : List VarId) : Carries false (separate before vars) := by
  induction vars generalizing before with
  | nil => exact carries_pure false
  | cons x after ih =>
    refine .after_read (reads_value? x) fun decided => ?_
    have rest (here : Bool) : Carries here
        (separate (before ++ [x]) after >>= fun later => pure (here || later)) :=
      (ih (before ++ [x])).bind fun later => carries_pure (here || later)
    cases decided with
    | none => exact (carries_pure false).bind fun here => by simpa using rest here
    | some v =>
      refine (carries_anyChange fun y _ => carries_remove y v).bind fun here => ?_
      simpa using rest here

theorem carries_lessThan (x y : VarId) : Carries false (lessThan x y) := by
  refine .after_read (reads_bounds y) fun ends => ?_
  refine .after_read (reads_require _) fun below => ?_
  refine (carries_restrict x _ _).bind fun first => ?_
  refine .after_read (reads_bounds x) fun ends' => ?_
  refine .after_read (reads_require _) fun above => ?_
  refine (carries_restrict y _ _).bind fun second => ?_
  simpa using carries_pure (first || second)

theorem carries_sumEquals (terms : List VarId) (total : VarId) :
    Carries false (sumEquals terms total) := by
  refine .after_read (reads_allBounds terms) fun spans => ?_
  refine (carries_restrict total _ _).bind fun first => ?_
  refine .after_read (reads_bounds total) fun ends => ?_
  refine (carries_anyChange fun part _ => carries_restrict part.1 _ _).bind fun later => ?_
  simpa using carries_pure (first || later)

end Narrowing

/-- Every rule narrows, and its flag is exact. -/
theorem Constraint.carries_propagate (c : Constraint) : Narrowing.Carries false c.propagate := by
  cases c with
  | negation x y => exact Narrowing.carries_negation x y
  | notEqual x y => exact Narrowing.carries_notEqual x y
  | allDifferent vars => exact Narrowing.carries_separate [] vars
  | lessThan x y => exact Narrowing.carries_lessThan x y
  | sumEquals terms total => exact Narrowing.carries_sumEquals terms total

end StagedSearch
