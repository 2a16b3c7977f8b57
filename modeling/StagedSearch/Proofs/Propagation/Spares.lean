/-
# Rules spare stable tables

The two halves of what stability is for. A rule that reports no change stands on a stable
table (`Constraint.stable_of_propagate`). And a rule that runs on a table above a stable one
succeeds and stays above it (`Constraint.Stable.spares`), however much the larger table
allows.
-/

import StagedSearch.Proofs.Propagation.Stable

namespace StagedSearch

/-! ## No change means stable -/

namespace Narrowing

variable {t u : DomainTable} {x y : VarId}

theorem stable_of_negation (canonical : t.Canonical) (run : negation x y t = .ok false u) :
    (Constraint.negation x y).Stable t := by
  simp only [negation, bind_eq_ok] at run
  obtain ⟨⟨yMin, yMax⟩, u, ends, run⟩ := run
  obtain ⟨spanY, rfl⟩ := bounds_eq_ok.1 ends
  obtain ⟨limits, u, run', first, u', restrict₁, ⟨xMin, xMax⟩, u'', ends', run⟩ := run
  obtain ⟨inRangeY, rfl, rfl⟩ := negatedBounds_eq_ok.1 run'
  obtain ⟨limits', w, run', second, w', restrict₂, decided, w'', value, run⟩ := run
  obtain ⟨inRangeX, rfl, rfl⟩ := negatedBounds_eq_ok.1 run'
  -- Each flag is down, so the table never moved.
  have flags : first = false ∧ second = false ∧
      ∀ v, decided = some v → ∃ opposite third w₁ w₂ w₃,
        require (Signed64.checked (-v)) w'' = .ok opposite w₁ ∧
        restrict x opposite opposite w₁ = .ok third w₂ ∧ third = false ∧ w₃ = w₂ := by
    cases decided with
    | none =>
      simp only [pure_eq_ok, Bool.or_eq_false_iff] at run
      exact ⟨run.1.1, run.1.2, nofun⟩
    | some v =>
      simp only [bind_eq_ok, pure_eq_ok, Bool.or_eq_false_iff] at run
      obtain ⟨opposite, w₁, run₁, third, w₂, run₂, ⟨⟨rfl, rfl⟩, rfl⟩, rfl⟩ := run
      refine ⟨rfl, rfl, ?_⟩
      rintro _ ⟨⟩
      exact ⟨opposite, false, w₁, w₂, w₂, run₁, run₂, rfl, rfl⟩
  obtain ⟨rfl, rfl, thirds⟩ := flags
  obtain ⟨rfl, _, _, spanX, lowX, highX⟩ := restrict_eq_ok_false canonical restrict₁
  obtain ⟨spanX', rfl⟩ := bounds_eq_ok.1 ends'
  obtain ⟨rfl, rfl⟩ := spanX.unique spanX'
  obtain ⟨rfl, _, _, spanY', lowY, highY⟩ := restrict_eq_ok_false canonical restrict₂
  obtain ⟨rfl, rfl⟩ := spanY.unique spanY'
  obtain ⟨d, here, rfl, rfl⟩ := value?_eq_ok.1 value
  refine ⟨_, _, _, _, spanX, spanY, ⟨inRangeY, lowX, highX⟩, ⟨inRangeX, lowY, highY⟩, ?_⟩
  rintro v ⟨d', here', only⟩
  obtain rfl : d = d' := Option.some.inj (here.symm.trans here')
  obtain ⟨opposite, third, w₁, w₂, w₃, run₁, run₂, rfl, -⟩ := thirds v only
  obtain ⟨checked, rfl⟩ := require_eq_ok.1 run₁
  obtain ⟨inRange, rfl⟩ := Signed64.checked_eq_some_iff.1 checked
  obtain ⟨-, low, high, spanX', atLeast, atMost⟩ := restrict_eq_ok_false canonical run₂
  obtain ⟨rfl, rfl⟩ := spanX.unique spanX'
  obtain ⟨lowest, highest⟩ := spanX.holds canonical
  have ordered := (spanX.bounds canonical highest).1
  exact ⟨inRange, by omega, by omega⟩

theorem apart_of_removeDecided (canonical : t.Canonical)
    (run : removeDecided x y t = .ok false u) :
    u = t ∧ (∃ d, t.int? x = some d) ∧ ∀ value, t.Decides x value → ¬ t.Holds y value := by
  obtain rfl := (carries_removeDecided x y).eq_of_down canonical run
  refine ⟨rfl, ?_⟩
  simp only [removeDecided, bind_eq_ok] at run
  obtain ⟨decided, w, value, run⟩ := run
  obtain ⟨d, here, rfl, rfl⟩ := value?_eq_ok.1 value
  refine ⟨⟨d, here⟩, ?_⟩
  rintro v ⟨d', here', only⟩
  obtain rfl : d = d' := Option.some.inj (here.symm.trans here')
  rw [only] at run
  exact (remove_eq_ok_false canonical run).2

theorem stable_of_notEqual (canonical : t.Canonical) (run : notEqual x y t = .ok false u) :
    (Constraint.notEqual x y).Stable t := by
  simp only [notEqual, bind_eq_ok, pure_eq_ok, Bool.or_eq_false_iff] at run
  obtain ⟨first, w, run₁, second, w', run₂, ⟨rfl, rfl⟩, -⟩ := run
  obtain ⟨rfl, hereX, apart⟩ := apart_of_removeDecided canonical run₁
  obtain ⟨-, hereY, apart'⟩ := apart_of_removeDecided canonical run₂
  exact ⟨hereX, hereY, apart, apart'⟩

theorem of_anyChange_eq_ok_false {α : Type} {operation : α → Narrowing Bool} {list : List α}
    (each : ∀ a ∈ list, Carries false (operation a)) (canonical : t.Canonical)
    (run : anyChange operation list t = .ok false u) :
    u = t ∧ ∀ a ∈ list, operation a t = .ok false t := by
  induction list with
  | nil =>
    obtain ⟨-, rfl⟩ := pure_eq_ok.1 run
    exact ⟨rfl, by simp⟩
  | cons a rest ih =>
    simp only [anyChange, bind_eq_ok, pure_eq_ok, Bool.or_eq_false_iff] at run
    obtain ⟨first, w, run₁, later, w', run₂, ⟨rfl, rfl⟩, rfl⟩ := run
    obtain rfl := (each a (by simp)).eq_of_down canonical run₁
    obtain ⟨rfl, others⟩ := ih (fun b member => each b (by simp [member])) run₂
    exact ⟨rfl, by simpa using ⟨run₁, others⟩⟩

/-- What the visit of a place comes to: where it is decided, the other places are visited. -/
theorem separate_cons_eq_ok {before vars : List VarId} {x : VarId} {changed : Bool}
    (run : separate before (x :: vars) t = .ok changed u) :
    ∃ d here w later, t.int? x = some d ∧
      ((d.value? = none ∧ here = false ∧ w = t) ∨ ∃ v, d.value? = some v ∧
        anyChange (fun y => remove y v) (before ++ vars) t = .ok here w) ∧
      separate (before ++ [x]) vars w = .ok later u ∧ (here || later) = changed := by
  obtain ⟨decided, w, value, run⟩ := bind_eq_ok.1 run
  obtain ⟨d, found, rfl, rfl⟩ := value?_eq_ok.1 value
  cases only : d.value? with
  | none =>
    rw [only] at run
    obtain ⟨here, w', first, run⟩ := bind_eq_ok.1 run
    obtain ⟨later, w'', rest, flags⟩ := bind_eq_ok.1 run
    obtain ⟨rfl, rfl⟩ := pure_eq_ok.1 first
    obtain ⟨rfl, rfl⟩ := pure_eq_ok.1 flags
    exact ⟨d, _, _, later, found, .inl ⟨only, rfl, rfl⟩, rest, rfl⟩
  | some v =>
    rw [only] at run
    obtain ⟨here, w', first, run⟩ := bind_eq_ok.1 run
    obtain ⟨later, w'', rest, flags⟩ := bind_eq_ok.1 run
    obtain ⟨rfl, rfl⟩ := pure_eq_ok.1 flags
    exact ⟨d, here, w', later, found, .inr ⟨v, only, first⟩, rest, rfl⟩

/-- Visiting the places in turn without a change, every decided place misses all others. -/
theorem stable_of_separate {before vars : List VarId} (canonical : t.Canonical)
    (run : separate before vars t = .ok false u) :
    u = t ∧ ∀ rest x after, vars = rest ++ x :: after →
      (∃ d, t.int? x = some d) ∧ ∀ value, t.Decides x value →
        ∀ y ∈ before ++ rest ++ after, ¬ t.Holds y value := by
  induction vars generalizing before with
  | nil =>
    obtain ⟨-, rfl⟩ := pure_eq_ok.1 run
    exact ⟨rfl, by simp⟩
  | cons x vars ih =>
    obtain ⟨d, here, w, later, found, first, goesOn, down⟩ := separate_cons_eq_ok run
    obtain ⟨rfl, rfl⟩ := Bool.or_eq_false_iff.1 down
    have others : w = t ∧ ∀ value, t.Decides x value →
        ∀ y ∈ before ++ vars, ¬ t.Holds y value := by
      rcases first with ⟨only, -, rfl⟩ | ⟨v, only, visited⟩
      · refine ⟨rfl, ?_⟩
        rintro v ⟨d', found', only'⟩
        obtain rfl : d = d' := Option.some.inj (found.symm.trans found')
        rw [only] at only'
        cases only'
      · obtain ⟨rfl, removed⟩ :=
          of_anyChange_eq_ok_false (fun y _ => carries_remove y v) canonical visited
        refine ⟨rfl, ?_⟩
        rintro v' ⟨d', found', only'⟩ y member
        obtain rfl : d = d' := Option.some.inj (found.symm.trans found')
        obtain rfl : v = v' := Option.some.inj (only.symm.trans only')
        exact (remove_eq_ok_false canonical (removed y member)).2
    obtain ⟨rfl, apart⟩ := others
    obtain ⟨rfl, rests⟩ := ih goesOn
    refine ⟨rfl, fun rest z after split => ?_⟩
    cases rest with
    | nil =>
      obtain ⟨rfl, rfl⟩ := List.cons.inj split
      exact ⟨⟨d, found⟩, by simpa using apart⟩
    | cons first rest =>
      obtain ⟨rfl, shorter⟩ := List.cons.inj split
      simpa using rests rest z after shorter

theorem stable_of_allDifferent {vars : List VarId} (canonical : t.Canonical)
    (run : separate [] vars t = .ok false u) : (Constraint.allDifferent vars).Stable t := by
  obtain ⟨-, places⟩ := stable_of_separate canonical run
  constructor
  · intro x member
    obtain ⟨rest, after, split⟩ := List.append_of_mem member
    exact (places rest x after split).1
  · rw [List.pairwise_iff_forall_sublist]
    intro x y pair
    obtain ⟨before, later, split, inBefore, inLater⟩ := List.cons_sublist_iff.1 pair
    have inLater := List.singleton_sublist.1 inLater
    obtain ⟨rest, middle, rfl⟩ := List.append_of_mem inBefore
    obtain ⟨middle', after, rfl⟩ := List.append_of_mem inLater
    subst split
    constructor
    · intro value decides
      exact (places rest x (middle ++ (middle' ++ y :: after)) (by simp)).2 value decides y
        (by simp)
    · intro value decides
      exact (places (rest ++ x :: (middle ++ middle')) y after (by simp)).2 value decides x
        (by simp)

theorem stable_of_lessThan (canonical : t.Canonical) (run : lessThan x y t = .ok false u) :
    (Constraint.lessThan x y).Stable t := by
  simp only [lessThan, bind_eq_ok, pure_eq_ok] at run
  obtain ⟨⟨yMin, yMax⟩, w, ends, below, w', run₁, first, w'', run₂, ⟨xMin, xMax⟩, v, ends',
    above, v', run₃, second, v'', run₄, flags, rfl⟩ := run
  obtain ⟨rfl, rfl⟩ := Bool.or_eq_false_iff.1 flags
  obtain ⟨spanY, rfl⟩ := bounds_eq_ok.1 ends
  obtain ⟨checked, rfl⟩ := require_eq_ok.1 run₁
  obtain ⟨inRangeY, rfl⟩ := Signed64.checked_eq_some_iff.1 checked
  obtain ⟨rfl, _, _, spanX, lowX, highX⟩ := restrict_eq_ok_false canonical run₂
  obtain ⟨spanX', rfl⟩ := bounds_eq_ok.1 ends'
  obtain ⟨rfl, rfl⟩ := spanX.unique spanX'
  obtain ⟨checked, rfl⟩ := require_eq_ok.1 run₃
  obtain ⟨inRangeX, rfl⟩ := Signed64.checked_eq_some_iff.1 checked
  obtain ⟨-, _, _, spanY', lowY, highY⟩ := restrict_eq_ok_false canonical run₄
  obtain ⟨rfl, rfl⟩ := spanY.unique spanY'
  exact ⟨_, _, _, _, spanX, spanY, ⟨inRangeY, lowX, highX⟩, inRangeX, lowY, highY⟩

theorem allBounds_eq_ok {vars : List VarId} {spans : List (Int × Int)}
    (run : allBounds vars t = .ok spans u) :
    u = t ∧ List.Forall₂ (fun x (span : Int × Int) => t.Spans x span.1 span.2) vars spans := by
  induction vars generalizing spans with
  | nil =>
    obtain ⟨rfl, rfl⟩ := pure_eq_ok.1 run
    exact ⟨rfl, .nil⟩
  | cons x rest ih =>
    simp only [allBounds, bind_eq_ok, pure_eq_ok] at run
    obtain ⟨⟨low, high⟩, w, ends, later, w', run', rfl, rfl⟩ := run
    obtain ⟨span, rfl⟩ := bounds_eq_ok.1 ends
    obtain ⟨rfl, others⟩ := ih run'
    exact ⟨rfl, .cons span others⟩

theorem stable_of_sumEquals {terms : List VarId} {total : VarId} (canonical : t.Canonical)
    (run : sumEquals terms total t = .ok false u) :
    (Constraint.sumEquals terms total).Stable t := by
  simp only [sumEquals, bind_eq_ok, pure_eq_ok] at run
  obtain ⟨spans, w, run₁, first, w', run₂, ⟨totalMin, totalMax⟩, w'', ends, later, v, run₃,
    flags, rfl⟩ := run
  obtain ⟨rfl, rfl⟩ := Bool.or_eq_false_iff.1 flags
  obtain ⟨rfl, each⟩ := allBounds_eq_ok run₁
  obtain ⟨rfl, _, _, spanTotal, low, high⟩ := restrict_eq_ok_false canonical run₂
  obtain ⟨spanTotal', rfl⟩ := bounds_eq_ok.1 ends
  obtain ⟨rfl, rfl⟩ := spanTotal.unique spanTotal'
  obtain ⟨-, parts⟩ :=
    of_anyChange_eq_ok_false (fun part _ => carries_restrict part.1 _ _) canonical run₃
  refine ⟨spans, _, _, each, spanTotal, ⟨low, high⟩, fun span member => ?_⟩
  obtain ⟨i, at_⟩ := List.mem_iff_getElem?.1 member
  have shorter : i < terms.length := by
    have := (List.getElem?_eq_some_iff.1 at_).1
    rwa [each.length_eq]
  have here : terms[i]? = some terms[i] := List.getElem?_eq_getElem shorter
  have part : (terms[i], span) ∈ terms.zip spans :=
    List.mem_iff_getElem?.2 ⟨i, List.getElem?_zip_eq_some.2 ⟨here, at_⟩⟩
  obtain ⟨-, _, _, spanTerm, low, high⟩ := restrict_eq_ok_false canonical (parts _ part)
  obtain ⟨inside, equal⟩ := List.getElem?_eq_some_iff.1 at_
  have own := each.get shorter inside
  rw [List.get_eq_getElem, List.get_eq_getElem, equal] at own
  obtain ⟨rfl, rfl⟩ := own.unique spanTerm
  exact ⟨low, high⟩

end Narrowing

/-- A rule that reports no change has met a stable table. -/
theorem Constraint.stable_of_propagate {c : Constraint} {t u : DomainTable}
    (canonical : t.Canonical) (run : c.propagate t = .ok false u) : c.Stable t := by
  cases c with
  | negation x y => exact Narrowing.stable_of_negation canonical run
  | notEqual x y => exact Narrowing.stable_of_notEqual canonical run
  | allDifferent vars => exact Narrowing.stable_of_allDifferent canonical run
  | lessThan x y => exact Narrowing.stable_of_lessThan canonical run
  | sumEquals terms total => exact Narrowing.stable_of_sumEquals canonical run

/-! ## Rules stay above stable tables -/

namespace DomainTable

/-- A table that propagation may meet: canonical, and with values of the signed range. -/
structure Sound (t : DomainTable) : Prop where
  canonical : t.Canonical
  inRange : t.InRange

/-- The first table lies below the second one, which propagation may meet. -/
structure Below (p t : DomainTable) : Prop where
  sound : t.Sound
  within : p.Within t

theorem Narrows.sound {t u : DomainTable} (narrows : t.Narrows u) (sound : t.Sound) : u.Sound :=
  ⟨narrows.canonical sound.canonical, narrows.within.inRange sound.inRange⟩

end DomainTable

namespace Narrowing

variable {α β : Type} {p : DomainTable}

/-- On every table above `p` the operation succeeds, what it leaves is above `p`, and what it
returns is as described. -/
def Spares (p : DomainTable) (op : Narrowing α) (description : α → Prop) : Prop :=
  ∀ t, p.Below t → ∃ a u, op t = .ok a u ∧ p.Below u ∧ description a

theorem spares_pure {description : α → Prop} {a : α} (described : description a) :
    Spares p (pure a : Narrowing α) description :=
  fun t below => ⟨a, t, rfl, below, described⟩

theorem Spares.bind {x : Narrowing α} {f : α → Narrowing β} {first : α → Prop}
    {second : β → Prop} (here : Spares p x first) (later : ∀ a, first a → Spares p (f a) second) :
    Spares p (x >>= f) second := by
  intro t below
  obtain ⟨a, u, run, below, described⟩ := here t below
  obtain ⟨b, w, run', below, described'⟩ := later a described u below
  exact ⟨b, w, bind_eq_ok.2 ⟨a, u, run, run'⟩, below, described'⟩

theorem spares_require {o : Option α} {a : α} (present : o = some a) :
    Spares p (require o) (· = a) :=
  fun t below => ⟨a, t, require_eq_ok.2 ⟨present, rfl⟩, below, rfl⟩

/-- The bounds that are read lie around those of the smaller table. -/
theorem spares_bounds {low high : Int} (canonical : p.Canonical) (spans : p.Spans var low high) :
    Spares p (bounds var) fun ends =>
      Signed64.InRange ends.1 ∧ ends.1 ≤ low ∧ high ≤ ends.2 ∧ Signed64.InRange ends.2 := by
  intro t below
  obtain ⟨lowest, highest⟩ := spans.holds canonical
  have lowest := below.within.holds lowest
  have highest := below.within.holds highest
  obtain ⟨d, here, inside⟩ := lowest
  obtain ⟨a, b, least, greatest⟩ := (below.sound.canonical.int? here).exists_bounds ⟨low, inside⟩
  have spans' : t.Spans var a b := ⟨d, here, least, greatest⟩
  obtain ⟨first, last⟩ := spans'.holds below.sound.canonical
  refine ⟨(a, b), t, bounds_eq_ok.2 ⟨spans', rfl⟩, below, ?_, ?_, ?_, ?_⟩
  · exact below.sound.inRange _ _ first
  · exact (spans'.bounds below.sound.canonical ⟨d, here, inside⟩).1
  · exact (spans'.bounds below.sound.canonical highest).2
  · exact below.sound.inRange _ _ last

/-- What is decided in a larger table is decided in the smaller one. -/
theorem spares_value? {d : IntDomain} (canonical : p.Canonical) (here : p.int? var = some d)
    (filled : d.HasValue) : Spares p (value? var) fun o => ∀ v, o = some v → p.Decides var v := by
  intro t below
  obtain ⟨e, there, inner⟩ := below.within.int? here
  refine ⟨e.value?, t, value?_eq_ok.2 ⟨e, there, rfl, rfl⟩, below, fun v only => ?_⟩
  refine ⟨d, here, (canonical.int? here).value?_eq_some_iff.2 fun other => ?_⟩
  have same := (below.sound.canonical.int? there).value?_eq_some_iff.1 only
  refine ⟨fun inside => (same other).1 (inner other inside), ?_⟩
  rintro rfl
  obtain ⟨value, inside⟩ := filled
  exact (same value).1 (inner value inside) ▸ inside

theorem spares_restrict {low high min max : Int} (canonical : p.Canonical)
    (spans : p.Spans var low high) (atLeast : min ≤ low) (atMost : high ≤ max) :
    Spares p (restrict var min max) fun _ => True := by
  intro t below
  obtain ⟨lowest, -⟩ := spans.holds canonical
  have ordered := (spans.bounds canonical lowest).2
  obtain ⟨d, here, inside⟩ := below.within.holds lowest
  obtain ⟨changed, u, run⟩ :=
    exists_restrict_eq_ok below.sound.canonical here inside atLeast (ordered.trans atMost)
  have narrows := (carries_restrict var min max).narrows below.sound.canonical run
  refine ⟨changed, u, run, ⟨narrows.sound below.sound, ?_⟩, trivial⟩
  refine within_of_restrict below.sound.canonical below.within (fun value holds => ?_) run
  have := spans.bounds canonical holds
  omega

theorem spares_remove {d : IntDomain} {value : Int} (here : p.int? var = some d)
    (filled : d.HasValue) (without : ¬ p.Holds var value) :
    Spares p (remove var value) fun _ => True := by
  intro t below
  obtain ⟨other, inside⟩ := filled
  obtain ⟨e, there, inner⟩ := below.within.int? here
  have different : other ≠ value := by
    rintro rfl
    exact without ⟨d, here, inside⟩
  obtain ⟨changed, u, run⟩ :=
    exists_remove_eq_ok below.sound.canonical there (inner other inside) different
  have narrows := (carries_remove var value).narrows below.sound.canonical run
  exact ⟨changed, u, run, ⟨narrows.sound below.sound,
    within_of_remove below.sound.canonical below.within without run⟩, trivial⟩

theorem spares_anyChange {operation : α → Narrowing Bool} {list : List α}
    (each : ∀ a ∈ list, Spares p (operation a) fun _ => True) :
    Spares p (anyChange operation list) fun _ => True := by
  induction list with
  | nil => exact spares_pure trivial
  | cons a rest ih =>
    refine (each a (by simp)).bind fun first _ => ?_
    refine (ih fun b member => each b (by simp [member])).bind fun later _ => ?_
    exact spares_pure trivial

/-- The bounds that are read for the terms of a sum lie around those of the smaller table. -/
theorem spares_allBounds {vars : List VarId} {spans : List (Int × Int)}
    (canonical : p.Canonical)
    (each : List.Forall₂ (fun x (span : Int × Int) => p.Spans x span.1 span.2) vars spans) :
    Spares p (allBounds vars) fun read =>
      List.Forall₂ (fun (ends span : Int × Int) => ends.1 ≤ span.1 ∧ span.2 ≤ ends.2)
        read spans := by
  induction each with
  | nil => exact spares_pure .nil
  | cons spans _ ih =>
    refine (spares_bounds canonical spans).bind fun ends around => ?_
    refine ih.bind fun later arounds => ?_
    exact spares_pure (.cons ⟨around.2.1, around.2.2.1⟩ arounds)

/-! ## The five rules -/

/-- Bounds around those of a smaller table are negated to bounds around the negated ones. -/
theorem spares_negatedBounds {low high low' high' : Int} (inRange : Signed64.InRange low)
    (inRange' : Signed64.InRange (-high)) (fits : Signed64.InRange low')
    (fits' : Signed64.InRange high') (around : low' ≤ low ∧ high ≤ high') :
    Spares p (negatedBounds low' high') fun limits =>
      limits.1 ≤ -high ∧ Signed64.opposite low ≤ limits.2 := by
  have checked : Signed64.checked (-high') = some (-high') := by
    refine Signed64.checked_eq_some_iff.2 ⟨?_, rfl⟩
    unfold Signed64.InRange Signed64.least Signed64.greatest at *
    omega
  apply (spares_require checked).bind
  rintro _ rfl
  exact spares_pure ⟨by omega, Signed64.opposite_anti inRange fits around.1⟩

theorem spares_negation (sound : p.Sound) (stable : (Constraint.negation x y).Stable p) :
    Spares p (negation x y) fun _ => True := by
  obtain ⟨xMin, xMax, yMin, yMax, spanX, spanY, ⟨fitsY, lowX, highX⟩, ⟨fitsX, lowY, highY⟩,
    decided⟩ := stable
  have canonical := sound.canonical
  obtain ⟨lowestX, -⟩ := spanX.holds canonical
  obtain ⟨lowestY, -⟩ := spanY.holds canonical
  have inRangeX := sound.inRange _ _ lowestX
  have inRangeY := sound.inRange _ _ lowestY
  refine (spares_bounds canonical spanY).bind fun ends around => ?_
  refine (spares_negatedBounds inRangeY fitsY around.1 around.2.2.2
    ⟨around.2.1, around.2.2.1⟩).bind fun limits limited => ?_
  refine (spares_restrict canonical spanX (limited.1.trans lowX)
    (highX.trans limited.2)).bind fun first _ => ?_
  refine (spares_bounds canonical spanX).bind fun ends' around' => ?_
  refine (spares_negatedBounds inRangeX fitsX around'.1 around'.2.2.2
    ⟨around'.2.1, around'.2.2.1⟩).bind fun limits' limited' => ?_
  refine (spares_restrict canonical spanY (limited'.1.trans lowY)
    (highY.trans limited'.2)).bind fun second _ => ?_
  obtain ⟨d, here, inside⟩ := lowestY
  refine (spares_value? canonical here ⟨_, inside⟩).bind fun value only => ?_
  cases value with
  | none => exact spares_pure trivial
  | some v =>
    obtain ⟨fits, equal, equal'⟩ := decided v (only v rfl)
    apply (spares_require (Signed64.checked_eq_some_iff.2 ⟨fits, rfl⟩)).bind
    rintro _ rfl
    refine (spares_restrict canonical spanX equal.ge equal'.le).bind fun third _ => ?_
    exact spares_pure trivial

theorem spares_removeDecided {d e : IntDomain} (canonical : p.Canonical) (filled : p.Filled)
    (hereX : p.int? x = some d) (hereY : p.int? y = some e)
    (apart : ∀ value, p.Decides x value → ¬ p.Holds y value) :
    Spares p (removeDecided x y) fun _ => True := by
  refine (spares_value? canonical hereX (filled.int? hereX)).bind fun decided only => ?_
  cases decided with
  | none => exact spares_pure trivial
  | some v => exact spares_remove hereY (filled.int? hereY) (apart v (only v rfl))

theorem spares_notEqual (canonical : p.Canonical) (filled : p.Filled)
    (stable : (Constraint.notEqual x y).Stable p) : Spares p (notEqual x y) fun _ => True := by
  obtain ⟨⟨d, hereX⟩, ⟨e, hereY⟩, apart, apart'⟩ := stable
  refine (spares_removeDecided canonical filled hereX hereY apart).bind fun first _ => ?_
  refine (spares_removeDecided canonical filled hereY hereX apart').bind fun second _ => ?_
  exact spares_pure trivial

theorem spares_separate {before vars : List VarId} (canonical : p.Canonical) (filled : p.Filled)
    (ints : ∀ x ∈ before ++ vars, ∃ d, p.int? x = some d)
    (apart : (before ++ vars).Pairwise p.Apart) :
    Spares p (separate before vars) fun _ => True := by
  induction vars generalizing before with
  | nil => exact spares_pure trivial
  | cons x after ih =>
    have split : before ++ x :: after = before ++ [x] ++ after := by simp
    have rest (here : Bool) :
        Spares p (separate (before ++ [x]) after >>= fun later => pure (here || later))
          fun _ => True :=
      (ih (split ▸ ints) (split ▸ apart)).bind fun _ _ => spares_pure trivial
    obtain ⟨d, found⟩ := ints x (by simp)
    refine (spares_value? canonical found (filled.int? found)).bind fun decided only => ?_
    cases decided with
    | none => exact (spares_pure trivial).bind fun here (_ : True) => rest here
    | some v =>
      refine Spares.bind (spares_anyChange fun y member => ?_) fun here _ => rest here
      obtain ⟨e, there⟩ := ints y (by
        rcases List.mem_append.1 member with early | late
        · exact List.mem_append_left _ early
        · exact List.mem_append_right _ (List.mem_cons_of_mem _ late))
      apply spares_remove there (filled.int? there)
      obtain ⟨-, later, across⟩ := List.pairwise_append.1 apart
      rcases List.mem_append.1 member with early | late
      · exact (across y early x (by simp)).2 v (only v rfl)
      · exact ((List.pairwise_cons.1 later).1 y late).1 v (only v rfl)

theorem spares_lessThan (sound : p.Sound) (stable : (Constraint.lessThan x y).Stable p) :
    Spares p (lessThan x y) fun _ => True := by
  obtain ⟨xMin, xMax, yMin, yMax, spanX, spanY, ⟨fitsY, lowX, highX⟩, fitsX, lowY, highY⟩ := stable
  refine (spares_bounds sound.canonical spanY).bind fun ends around => ?_
  obtain ⟨-, -, above, inRange⟩ := around
  have checked : Signed64.checked (ends.2 - 1) = some (ends.2 - 1) := by
    refine Signed64.checked_eq_some_iff.2 ⟨?_, rfl⟩
    unfold Signed64.InRange at *
    omega
  apply (spares_require checked).bind
  rintro _ rfl
  refine (spares_restrict sound.canonical spanX lowX (by omega)).bind fun first _ => ?_
  refine (spares_bounds sound.canonical spanX).bind fun ends' around' => ?_
  obtain ⟨inRange', under, -, -⟩ := around'
  have checked' : Signed64.checked (ends'.1 + 1) = some (ends'.1 + 1) := by
    refine Signed64.checked_eq_some_iff.2 ⟨?_, rfl⟩
    unfold Signed64.InRange at *
    omega
  apply (spares_require checked').bind
  rintro _ rfl
  refine (spares_restrict sound.canonical spanY (by omega) highY).bind fun second _ => ?_
  exact spares_pure trivial

/-- Where every number of a list is at most that of another one, so is the sum; and what the
other places add stays at most as much. -/
theorem sumOf_le_sumOf {lower upper : List Int} (each : List.Forall₂ (· ≤ ·) lower upper) :
    sumOf lower ≤ sumOf upper ∧ ∀ (i : Nat) (a b : Int), lower[i]? = some a →
      upper[i]? = some b → sumOf lower - a ≤ sumOf upper - b := by
  induction each with
  | nil => simp
  | @cons first first' rest rest' le _ ih =>
    refine ⟨by simp only [sumOf_cons]; omega, fun i a b here there => ?_⟩
    cases i with
    | zero =>
      obtain rfl : first = a := by simpa using here
      obtain rfl : first' = b := by simpa using there
      simp only [sumOf_cons]
      omega
    | succ i =>
      have := ih.2 i a b (by simpa using here) (by simpa using there)
      simp only [sumOf_cons]
      omega

theorem spares_sumEquals {terms : List VarId} {total : VarId} (canonical : p.Canonical)
    (stable : (Constraint.sumEquals terms total).Stable p) :
    Spares p (sumEquals terms total) fun _ => True := by
  obtain ⟨spans, totalMin, totalMax, each, spanTotal, ⟨low, high⟩, parts⟩ := stable
  refine (spares_allBounds canonical each).bind fun read around => ?_
  -- The bounds that were read stay around the stable ones while the table narrows.
  have lows : List.Forall₂ (· ≤ ·) (read.map Prod.fst) (spans.map Prod.fst) := by
    rw [List.forall₂_map_left_iff, List.forall₂_map_right_iff]
    exact around.imp fun _ _ le => le.1
  have highs : List.Forall₂ (· ≤ ·) (spans.map Prod.snd) (read.map Prod.snd) := by
    rw [List.forall₂_map_left_iff, List.forall₂_map_right_iff]
    exact around.flip.imp fun _ _ le => le.2
  obtain ⟨sumLow, restLow⟩ := sumOf_le_sumOf lows
  obtain ⟨sumHigh, restHigh⟩ := sumOf_le_sumOf highs
  refine (spares_restrict canonical spanTotal ((Signed64.clamp_mono sumLow).trans low)
    (high.trans (Signed64.clamp_mono sumHigh))).bind fun first _ => ?_
  refine (spares_bounds canonical spanTotal).bind fun ends limits => ?_
  obtain ⟨-, least, greatest, -⟩ := limits
  refine Spares.bind (spares_anyChange ?_) fun later _ => spares_pure trivial
  rintro ⟨term, low', high'⟩ member
  obtain ⟨i, at_⟩ := List.mem_iff_getElem?.1 member
  obtain ⟨here, there⟩ := List.getElem?_zip_eq_some.1 at_
  have inside : i < spans.length := by
    rw [← each.length_eq]
    exact (List.getElem?_eq_some_iff.1 here).1
  have span : spans[i]? = some spans[i] := List.getElem?_eq_getElem inside
  have own : p.Spans term spans[i].1 spans[i].2 := by
    obtain ⟨shorter, equal⟩ := List.getElem?_eq_some_iff.1 here
    have := each.get shorter inside
    rwa [List.get_eq_getElem, List.get_eq_getElem, equal] at this
  obtain ⟨lowest, highest⟩ := parts spans[i] (List.getElem_mem inside)
  have gapHigh := restHigh i spans[i].2 high' (by simp [span]) (by simp [there])
  have gapLow := restLow i low' spans[i].1 (by simp [there]) (by simp [span])
  refine spares_restrict canonical own ?_ ?_
  · exact (Signed64.clamp_mono (by omega)).trans lowest
  · exact highest.trans (Signed64.clamp_mono (by omega))

end Narrowing

/-- A rule never narrows away a table that it is stable on: it succeeds on every larger table
and leaves a larger one. -/
theorem Constraint.Stable.spares {c : Constraint} {p : DomainTable} (sound : p.Sound)
    (filled : p.Filled) (stable : c.Stable p) : Narrowing.Spares p c.propagate fun _ => True := by
  cases c with
  | negation x y => exact Narrowing.spares_negation sound stable
  | notEqual x y => exact Narrowing.spares_notEqual sound.canonical filled stable
  | allDifferent vars => exact Narrowing.spares_separate sound.canonical filled stable.1 stable.2
  | lessThan x y => exact Narrowing.spares_lessThan sound stable
  | sumEquals terms total => exact Narrowing.spares_sumEquals sound.canonical stable

end StagedSearch
