/-
# Rules decide decided scopes

Where all variables in the scope of a constraint are decided, its rule is a test. It either
accepts the values, without a change, or refuses them, and it accepts exactly those that the
constraint relates. Nothing is asked of the rest of the table, and the same variable may stand
at several places.

Each step of a rule is such a test (`Narrowing.Tests`), and the test that a rule makes is the
conjunction of those of its steps. What is left is arithmetic: a value without a negative, a
predecessor or a successor in the range fails a step, and stands in no related pair; a sum
outside the range may pass the test of the total and that of a term, but not those of all terms.
-/

import StagedSearch.Proofs.Propagation.Ground

namespace StagedSearch

namespace Narrowing

/-- The operation only reads the table: it gives the result if the condition holds, and fails
if not. -/
structure Tests {α : Type} (t : DomainTable) (condition : Prop) (result : α)
    (op : Narrowing α) : Prop where
  accepts : condition → op t = .ok result t
  refuses : ¬ condition → op t = .error .inconsistent t

section Steps

variable {α β : Type} {t : DomainTable} {p q : Prop} {a : α} {b : β}

theorem Tests.congr {op : Narrowing α} (tests : Tests t p a op) (same : p ↔ q) :
    Tests t q a op := by
  rwa [← propext same]

theorem Tests.bind {x : Narrowing α} {f : α → Narrowing β} (first : Tests t p a x)
    (second : Tests t q b (f a)) : Tests t (p ∧ q) b (x >>= f) where
  accepts := by
    rintro ⟨here, later⟩
    rw [bind_apply, first.accepts here]
    exact second.accepts later
  refuses fails := by
    rw [bind_apply]
    by_cases here : p
    · rw [first.accepts here]
      exact second.refuses fun later => fails ⟨here, later⟩
    · rw [first.refuses here]

/-- An operation without a condition. -/
theorem tests_of_eq_ok {op : Narrowing α} (run : op t = .ok a t) : Tests t True a op :=
  ⟨fun _ => run, fun no => absurd trivial no⟩

theorem tests_pure (a : α) : Tests t True a (pure a) := tests_of_eq_ok rfl

theorem tests_checked (value : Int) :
    Tests t (Signed64.InRange value) value (require (Signed64.checked value)) where
  accepts inRange := require_eq_ok.2 ⟨Signed64.checked_eq_some_iff.2 ⟨inRange, rfl⟩, rfl⟩
  refuses outside := by
    rw [Signed64.checked_eq_none_iff.2 outside]
    rfl

theorem tests_negatedBounds (low high : Int) :
    Tests t (Signed64.InRange (-high)) (-high, Signed64.opposite low) (negatedBounds low high) := by
  have whole : Tests t _ _ (negatedBounds low high) :=
    (tests_checked (-high)).bind (tests_pure (-high, Signed64.opposite low))
  exact whole.congr (by simp)

/-- Operations in turn make the tests of all. -/
theorem tests_anyChange {condition : β → Prop} {operation : α → Narrowing Bool} {list : List α}
    {values : List β}
    (each : List.Forall₂ (fun a b => Tests t (condition b) false (operation a)) list values) :
    Tests t (∀ b ∈ values, condition b) false (anyChange operation list) := by
  induction each with
  | nil => exact (tests_pure false).congr (by simp)
  | cons here _ ih =>
    exact (here.bind (ih.bind (tests_pure _))).congr (by simp)

end Steps

/-! ## Steps on a decided variable -/

variable {t : DomainTable} {var x y total : VarId} {value a b : Int}

theorem tests_bounds (decides : t.Decides var value) : Tests t True (value, value) (bounds var) :=
  tests_of_eq_ok (bounds_eq_ok.2 ⟨decides.spans, rfl⟩)

theorem tests_value? (decides : t.Decides var value) : Tests t True (some value) (value? var) := by
  obtain ⟨d, here, only⟩ := decides
  exact tests_of_eq_ok (value?_eq_ok.2 ⟨d, here, only, rfl⟩)

/-- A restriction of a decided variable tests whether its value lies between the bounds. -/
theorem tests_restrict {min max : Int} (decides : t.Decides var value) :
    Tests t (min ≤ value ∧ value ≤ max) false (restrict var min max) := by
  obtain ⟨d, here, least, greatest⟩ := decides.spans
  have run : restrict var min max t = _ := restrict_apply here least greatest
  refine ⟨fun inside => ?_, fun outside => ?_⟩
  · rw [run, if_pos inside]
  · rw [run, if_neg outside, if_pos (by omega)]

/-- A removal from a decided variable tests whether its value is another one. -/
theorem tests_remove {other : Int} (decides : t.Decides var value) :
    Tests t (value ≠ other) false (remove var other) := by
  obtain ⟨d, here, only⟩ := decides
  have run : remove var other t = _ := remove_apply here
  have member : other ∈ d ↔ value = other := by
    rw [IntDomain.value?_eq_some_iff_interval.1 only, IntDomain.mem_interval]
    omega
  refine ⟨fun different => ?_, fun same => ?_⟩
  · rw [run, if_pos (by rwa [member])]
  · rw [run, if_neg (by rwa [member]), if_pos (by simp [IntDomain.isSingleton, only])]

/-! ## Rules on decided variables -/

/-- A negative that lies in the range is not clipped. -/
theorem opposite_eq (fits : Signed64.InRange (-b)) : Signed64.opposite b = -b := by
  rw [Signed64.opposite, Signed64.checked_eq_some_iff.2 ⟨fits, rfl⟩]
  rfl

theorem tests_negation (first : t.Decides x a) (second : t.Decides y b)
    (inRangeA : Signed64.InRange a) (inRangeB : Signed64.InRange b) :
    Tests t (a + b = 0) false (negation x y) := by
  have whole : Tests t _ false (negation x y) :=
    (tests_bounds second).bind <| (tests_negatedBounds b b).bind <|
      (tests_restrict first).bind <| (tests_bounds first).bind <|
      (tests_negatedBounds a a).bind <| (tests_restrict second).bind <|
      (tests_value? second).bind <| (tests_checked (-b)).bind <|
      (tests_restrict first).bind <| tests_pure _
  refine whole.congr ⟨?_, fun zero => ?_⟩
  · rintro ⟨-, -, -, -, -, -, -, -, ⟨low, high⟩, -⟩
    omega
  · have equal : -b = a := by omega
    have equal' : -a = b := by omega
    have fits : Signed64.InRange (-b) := equal ▸ inRangeA
    have fits' : Signed64.InRange (-a) := equal' ▸ inRangeB
    rw [opposite_eq fits, opposite_eq fits', equal, equal']
    simp [inRangeA, inRangeB]

theorem tests_removeDecided (first : t.Decides x a) (second : t.Decides y b) :
    Tests t (b ≠ a) false (removeDecided x y) :=
  ((tests_value? first).bind (tests_remove second)).congr (by simp)

theorem tests_notEqual (first : t.Decides x a) (second : t.Decides y b) :
    Tests t (a ≠ b) false (notEqual x y) := by
  have whole : Tests t _ false (notEqual x y) :=
    (tests_removeDecided first second).bind <| (tests_removeDecided second first).bind <|
      tests_pure _
  exact whole.congr (by grind)

theorem tests_lessThan (first : t.Decides x a) (second : t.Decides y b)
    (inRangeA : Signed64.InRange a) (inRangeB : Signed64.InRange b) :
    Tests t (a < b) false (lessThan x y) := by
  have whole : Tests t _ false (lessThan x y) :=
    (tests_bounds second).bind <| (tests_checked (b - 1)).bind <|
      (tests_restrict first).bind <| (tests_bounds first).bind <|
      (tests_checked (a + 1)).bind <| (tests_restrict second).bind <| tests_pure _
  refine whole.congr ?_
  unfold Signed64.InRange at *
  constructor
  · rintro ⟨-, -, ⟨-, below⟩, -⟩
    omega
  · intro less
    refine ⟨trivial, ?_, ?_, trivial, ?_, ?_, trivial⟩ <;> omega

/-- Each value is tested against those of all other places, and those before it too. -/
theorem tests_separate {before vars : List VarId} {earlier values : List Int}
    (former : List.Forall₂ t.Decides before earlier)
    (decided : List.Forall₂ t.Decides vars values) :
    Tests t (values.Nodup ∧ ∀ value ∈ values, value ∉ earlier) false (separate before vars) := by
  induction decided generalizing before earlier with
  | nil => exact (tests_pure false).congr (by simp)
  | @cons x value after later here rest ih =>
    have others : Tests t (∀ other ∈ earlier ++ later, other ≠ value) false
        (anyChange (fun y => remove y value) (before ++ after)) :=
      tests_anyChange ((List.rel_append former rest).imp fun _ _ decides => tests_remove decides)
    have visited := ih (List.rel_append former (.cons here .nil))
    have whole : Tests t _ false (separate before (x :: after)) :=
      (tests_value? here).bind <| others.bind <| visited.bind <| tests_pure _
    refine whole.congr ?_
    grind

theorem tests_allBounds {terms : List VarId} {values : List Int}
    (decided : List.Forall₂ t.Decides terms values) :
    Tests t True (values.map fun value => (value, value)) (allBounds terms) := by
  induction decided with
  | nil => exact tests_pure _
  | @cons x value rest later here _ ih =>
    have whole : Tests t _ _ (allBounds (x :: rest)) :=
      (tests_bounds here).bind (ih.bind (tests_pure _))
    exact whole.congr (by simp)

theorem forall₂_zip_map {α β γ : Type} {relation : α → β → Prop} {g : β → γ} {firsts : List α}
    {seconds : List β} (related : List.Forall₂ relation firsts seconds) :
    List.Forall₂ (fun (pair : α × γ) second => relation pair.1 second ∧ pair.2 = g second)
      (firsts.zip (seconds.map g)) seconds := by
  induction related with
  | nil => exact .nil
  | cons here _ ih => exact .cons ⟨here, rfl⟩ ih

/-- The test of the total and those of all terms together leave no room for clipping. -/
theorem clamped_iff {values : List Int} {sum : Int} (inRange : Signed64.InRange sum)
    (each : ∀ value ∈ values, Signed64.InRange value) :
    (Signed64.clamp (sumOf values) = sum ∧
      ∀ value ∈ values, Signed64.clamp (sum - (sumOf values - value)) = value) ↔
      sumOf values = sum := by
  constructor
  · rintro ⟨whole, parts⟩
    exact Signed64.sumOf_eq_of_clamp whole parts
  · rintro rfl
    refine ⟨Signed64.clamp_of_inRange inRange, fun value member => ?_⟩
    rw [show sumOf values - (sumOf values - value) = value by omega]
    exact Signed64.clamp_of_inRange (each value member)

/-- Every term is tested against what the total and the other terms leave it. -/
theorem tests_terms {terms : List VarId} {values : List Int} {sum lowest highest : Int}
    (decided : List.Forall₂ t.Decides terms values) (low : lowest = sumOf values)
    (high : highest = sumOf values) :
    Tests t (∀ value ∈ values, Signed64.clamp (sum - (sumOf values - value)) = value) false
      (anyChange
        (fun part => restrict part.1 (Signed64.clamp (sum - (highest - part.2.2)))
          (Signed64.clamp (sum - (lowest - part.2.1))))
        (terms.zip (values.map fun value => (value, value)))) := by
  refine tests_anyChange ((forall₂_zip_map decided).imp fun part value related => ?_)
  obtain ⟨x, below, above⟩ := part
  obtain ⟨decides, ends⟩ := related
  obtain ⟨rfl, rfl⟩ := Prod.mk.inj ends
  rw [low, high]
  exact (tests_restrict decides).congr ⟨fun inside => le_antisymm inside.1 inside.2,
    fun equal => ⟨equal.le, equal.ge⟩⟩

theorem tests_sumEquals {terms : List VarId} {values : List Int} {sum : Int}
    (decided : List.Forall₂ t.Decides terms values) (last : t.Decides total sum)
    (inRange : Signed64.InRange sum) (each : ∀ value ∈ values, Signed64.InRange value) :
    Tests t (sumOf values = sum) false (sumEquals terms total) := by
  have firsts : (values.map fun value => (value, value)).map Prod.fst = values := by
    simp [Function.comp_def]
  have seconds : (values.map fun value => (value, value)).map Prod.snd = values := by
    simp [Function.comp_def]
  have whole : Tests t _ false (sumEquals terms total) :=
    (tests_allBounds decided).bind <| (tests_restrict last).bind <| (tests_bounds last).bind <|
      (tests_terms decided (congrArg sumOf firsts) (congrArg sumOf seconds)).bind <| tests_pure _
  refine whole.congr ?_
  rw [firsts, seconds, ← clamped_iff inRange each]
  constructor
  · rintro ⟨-, ⟨low, high⟩, -, parts, -⟩
    exact ⟨le_antisymm low high, parts⟩
  · rintro ⟨equal, parts⟩
    exact ⟨trivial, ⟨equal.le, equal.ge⟩, trivial, parts, trivial⟩

end Narrowing

theorem DomainTable.decides_rightUnique {t : DomainTable} :
    Relator.RightUnique t.Decides := by
  rintro var value other ⟨d, here, only⟩ ⟨d', here', only'⟩
  obtain rfl : d = d' := Option.some.inj (here.symm.trans here')
  exact Option.some.inj (only.symm.trans only')

namespace Constraint

variable {t : DomainTable} {relation : VarId → Int → Prop}

theorem exists_of_forall₂_pair {x y : VarId} {values : List Int}
    (related : List.Forall₂ relation [x, y] values) :
    ∃ a b, relation x a ∧ relation y b ∧ values = [a, b] := by
  cases related with
  | cons first later =>
    cases later with
    | cons second none =>
      cases none
      exact ⟨_, _, first, second, rfl⟩

theorem exists_of_forall₂_concat {vars : List VarId} {last : VarId} {values : List Int}
    (related : List.Forall₂ relation (vars ++ [last]) values) :
    ∃ front value, List.Forall₂ relation vars front ∧ relation last value ∧
      values = front ++ [value] := by
  have front := List.forall₂_take_append values vars [last] related.flip
  have rest := List.forall₂_drop_append values vars [last] related.flip
  cases split : values.drop vars.length with
  | nil =>
    rw [split] at rest
    cases rest
  | cons value none =>
    rw [split] at rest
    cases rest with
    | cons here done =>
      cases done
      exact ⟨_, value, front.flip, here, by rw [← split, List.take_append_drop]⟩

/-- The rule of a constraint on decided variables tests whether it relates their values. -/
theorem tests_propagate {c : Constraint} {values : List Int}
    (decided : List.Forall₂ t.Decides c.scope values)
    (inRange : ∀ value ∈ values, Signed64.InRange value) :
    Narrowing.Tests t (c.Relates values) false c.propagate := by
  cases c with
  | negation x y =>
    obtain ⟨a, b, first, second, rfl⟩ := exists_of_forall₂_pair decided
    refine (Narrowing.tests_negation first second (inRange a ?_) (inRange b ?_)).congr ?_ <;>
      simp [Relates]
  | notEqual x y =>
    obtain ⟨a, b, first, second, rfl⟩ := exists_of_forall₂_pair decided
    refine (Narrowing.tests_notEqual first second).congr ?_
    simp [Relates]
  | allDifferent vars =>
    refine (Narrowing.tests_separate .nil decided).congr ?_
    simp [Relates]
  | lessThan x y =>
    obtain ⟨a, b, first, second, rfl⟩ := exists_of_forall₂_pair decided
    refine (Narrowing.tests_lessThan first second (inRange a ?_) (inRange b ?_)).congr ?_ <;>
      simp [Relates]
  | sumEquals terms total =>
    obtain ⟨addends, sum, first, last, rfl⟩ := exists_of_forall₂_concat decided
    refine (Narrowing.tests_sumEquals first last (inRange sum ?_) fun value member =>
      inRange value ?_).congr ?_
    · simp
    · simp [member]
    · simp [Relates, eq_comm]

/-- The rule of a constraint whose scope is decided says exactly whether the decided integers
are related as the constraint demands, and leaves the table as it is. So a sum is never accepted
where the terms add up to something outside the range. -/
theorem propagate_eq_of_decided {c : Constraint} {values : List Int}
    (decided : List.Forall₂ t.Decides c.scope values)
    (inRange : ∀ value ∈ values, Signed64.InRange value) :
    (c.Relates values → c.propagate t = .ok false t) ∧
      (¬ c.Relates values → c.propagate t = .error .inconsistent t) ∧
      ∀ terms total addends, c = sumEquals terms total → List.Forall₂ t.Decides terms addends →
        ¬ Signed64.InRange (sumOf addends) → c.propagate t = .error .inconsistent t := by
  obtain ⟨accepts, refuses⟩ := tests_propagate decided inRange
  refine ⟨accepts, refuses, ?_⟩
  rintro terms total addends rfl first outside
  obtain ⟨front, sum, first', -, rfl⟩ := exists_of_forall₂_concat decided
  obtain rfl : addends = front := DomainTable.decides_rightUnique.forall₂ first first'
  refine refuses ?_
  rintro ⟨_, _, equal, rfl⟩
  obtain ⟨rfl, equal⟩ := List.append_inj' equal rfl
  cases equal
  exact outside (inRange _ (by simp))

/-- At the ends of the range: three times the greatest value and once the least one are not the
greatest value, although the total and the last term pass their tests. -/
theorem propagate_eq_at_the_ends :
    let t := ((DomainTable.empty.push (.int (.interval Signed64.greatest Signed64.greatest))).push
      (.int (.interval Signed64.least Signed64.least))).push (.int (.interval (-1) (-1)))
    (sumEquals [⟨0⟩, ⟨1⟩] ⟨2⟩).propagate t = .ok false t ∧
      (sumEquals [⟨0⟩, ⟨0⟩, ⟨0⟩, ⟨1⟩] ⟨0⟩).propagate t = .error .inconsistent t ∧
      Signed64.clamp (3 * Signed64.greatest + Signed64.least) = Signed64.greatest ∧
      (negation ⟨1⟩ ⟨1⟩).propagate t = .error .inconsistent t := by
  intro t
  have greatest : t.Decides ⟨0⟩ Signed64.greatest := ⟨_, rfl, rfl⟩
  have least : t.Decides ⟨1⟩ Signed64.least := ⟨_, rfl, rfl⟩
  have minus : t.Decides ⟨2⟩ (-1) := ⟨_, rfl, rfl⟩
  refine ⟨?_, ?_, by decide, ?_⟩
  · refine (propagate_eq_of_decided (.cons greatest (.cons least (.cons minus .nil)))
      (by decide)).1 ⟨[_, _], _, rfl, by decide⟩
  · refine (propagate_eq_of_decided
      (.cons greatest (.cons greatest (.cons greatest (.cons least (.cons greatest .nil)))))
      (by decide)).2.2 _ _ [_, _, _, _] rfl
      (.cons greatest (.cons greatest (.cons greatest (.cons least .nil)))) (by decide)
  · refine (propagate_eq_of_decided (.cons least (.cons least .nil)) (by decide)).2.1 ?_
    rintro ⟨_, _, equal, zero⟩
    cases equal
    exact absurd zero (by decide)

end Constraint

end StagedSearch
