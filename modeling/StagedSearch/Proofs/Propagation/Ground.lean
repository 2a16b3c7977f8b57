/-
# Rules on decided variables

Where every integer of a table is decided, nothing is left to narrow or the constraint is
violated: such a table is stable for a constraint exactly if the decided values satisfy it.
This is where the clipped arithmetic of the rules has to be exact. A sum that leaves the range
is moved into it, and a total there would pass for the sum; then every term would have to be
moved as well, and all terms would lie at the end of the range that the sum is not at.
-/

import StagedSearch.Proofs.Propagation.Fixpoint

namespace StagedSearch

namespace Signed64

theorem sumOf_nonpos {terms : List Int} (each : ∀ value ∈ terms, value ≤ 0) :
    sumOf terms ≤ 0 := by
  induction terms with
  | nil => rfl
  | cons value rest ih =>
    have here := each value (by simp)
    have later := ih fun other member => each other (by simp [member])
    rw [sumOf_cons]
    omega

theorem sumOf_nonneg {terms : List Int} (each : ∀ value ∈ terms, 0 ≤ value) :
    0 ≤ sumOf terms := by
  induction terms with
  | nil => rfl
  | cons value rest ih =>
    have here := each value (by simp)
    have later := ih fun other member => each other (by simp [member])
    rw [sumOf_cons]
    omega

/-- A total that clipping makes out to be the sum is the sum, if clipping makes out each term
to be what is left by the others. -/
theorem sumOf_eq_of_clamp {terms : List Int} {total : Int}
    (whole : clamp (sumOf terms) = total)
    (parts : ∀ value ∈ terms, clamp (total - (sumOf terms - value)) = value) :
    sumOf terms = total := by
  by_contra different
  rcases lt_or_ge greatest (sumOf terms) with above | within
  · -- Then every term is less than it should be, and so the least value of the range.
    have low : sumOf terms ≤ 0 := sumOf_nonpos fun value member => by
      have := parts value member
      unfold clamp least greatest at *
      omega
    unfold greatest at above
    omega
  · have below : sumOf terms < least := by
      unfold clamp least greatest at *
      omega
    have high : 0 ≤ sumOf terms := sumOf_nonneg fun value member => by
      have := parts value member
      unfold clamp least greatest at *
      omega
    unfold least at below
    omega

end Signed64

/-! ## Satisfaction by places -/

namespace Constraint

variable {assignment : Assignment} {x y : VarId}

/-- A relation between the two places of a scope. -/
theorem exists_pair_iff {relates : Int → Int → Prop} :
    (∃ values : List Int, [x, y].map assignment.int? = values.map some ∧
      ∃ a b, values = [a, b] ∧ relates a b) ↔
      ∃ a b, assignment.int? x = some a ∧ assignment.int? y = some b ∧ relates a b := by
  constructor
  · rintro ⟨_, places, a, b, rfl, related⟩
    simp only [List.map_cons, List.map_nil, List.cons.injEq, and_true] at places
    exact ⟨a, b, places.1, places.2, related⟩
  · rintro ⟨a, b, first, second, related⟩
    exact ⟨[a, b], by simp [first, second], a, b, rfl, related⟩

theorem holds_negation_iff : (negation x y).Holds assignment ↔
    ∃ a b, assignment.int? x = some a ∧ assignment.int? y = some b ∧ a + b = 0 :=
  exists_pair_iff

theorem holds_notEqual_iff : (notEqual x y).Holds assignment ↔
    ∃ a b, assignment.int? x = some a ∧ assignment.int? y = some b ∧ a ≠ b :=
  exists_pair_iff

theorem holds_lessThan_iff : (lessThan x y).Holds assignment ↔
    ∃ a b, assignment.int? x = some a ∧ assignment.int? y = some b ∧ a < b :=
  exists_pair_iff

theorem holds_sumEquals_iff {terms : List VarId} {total : VarId} :
    (sumEquals terms total).Holds assignment ↔
      ∃ values : List Int, terms.map assignment.int? = values.map some ∧
        assignment.int? total = some (sumOf values) := by
  constructor
  · rintro ⟨_, places, values, sum, rfl, rfl⟩
    simp only [scope, List.map_append, List.map_cons, List.map_nil] at places
    obtain ⟨first, last⟩ := List.append_inj' places rfl
    exact ⟨values, first, by simpa using last⟩
  · rintro ⟨values, first, last⟩
    exact ⟨values ++ [sumOf values], by simp [scope, first, last], values, _, rfl, rfl⟩

end Constraint

/-! ## Decided tables -/

namespace DomainTable

/-- Every integer domain of the table is decided, to the integer that an assignment gives its
variable, and no other variable gets an integer. -/
structure Mirrors (t : DomainTable) (assignment : Assignment) : Prop where
  decides : ∀ var value, assignment.int? var = some value ↔ t.Decides var value
  total : ∀ var d, t.int? var = some d → ∃ value, t.Decides var value

variable {t : DomainTable} {assignment : Assignment} {var x y : VarId} {value low high : Int}

theorem Decides.spans (decides : t.Decides var value) : t.Spans var value value := by
  obtain ⟨d, here, only⟩ := decides
  obtain rfl := IntDomain.value?_eq_some_iff_interval.1 only
  exact ⟨_, here, by simp [IntDomain.interval, IntDomain.min?],
    by simp [IntDomain.interval, IntDomain.max?]⟩

namespace Mirrors

theorem exists_int?_iff (mirrors : t.Mirrors assignment) :
    (∃ d, t.int? var = some d) ↔ ∃ value, assignment.int? var = some value := by
  constructor
  · rintro ⟨d, here⟩
    obtain ⟨value, decides⟩ := mirrors.total var d here
    exact ⟨value, (mirrors.decides var value).2 decides⟩
  · rintro ⟨value, given⟩
    obtain ⟨d, here, -⟩ := (mirrors.decides var value).1 given
    exact ⟨d, here⟩

/-- The bounds of a decided variable are its value. -/
theorem spans_iff (mirrors : t.Mirrors assignment) :
    t.Spans var low high ↔ assignment.int? var = some low ∧ low = high := by
  constructor
  · intro spans
    obtain ⟨d, here, -, -⟩ := id spans
    obtain ⟨value, decides⟩ := mirrors.total var d here
    obtain ⟨rfl, rfl⟩ := spans.unique decides.spans
    exact ⟨(mirrors.decides var _).2 decides, rfl⟩
  · rintro ⟨given, rfl⟩
    exact ((mirrors.decides var _).1 given).spans

theorem holds_iff (mirrors : t.Mirrors assignment) (canonical : t.Canonical) :
    t.Holds var value ↔ assignment.int? var = some value := by
  constructor
  · intro holds
    obtain ⟨d, here, -⟩ := id holds
    obtain ⟨only, decides⟩ := mirrors.total var d here
    obtain rfl := (decides.holds_iff canonical).1 holds
    exact (mirrors.decides var _).2 decides
  · intro given
    exact (((mirrors.decides var value).1 given).holds_iff canonical).2 rfl

/-- Two decided variables are apart if their values differ. -/
theorem apart_iff (mirrors : t.Mirrors assignment) (canonical : t.Canonical) {a b : Int}
    (first : assignment.int? x = some a) (second : assignment.int? y = some b) :
    t.Apart x y ↔ a ≠ b := by
  unfold Apart
  simp only [← mirrors.decides, mirrors.holds_iff canonical, first, second, Option.some.injEq]
  constructor
  · rintro ⟨apart, -⟩ equal
    exact apart a rfl equal.symm
  · rintro different
    refine ⟨?_, ?_⟩
    · rintro _ rfl equal
      exact different equal.symm
    · rintro _ rfl equal
      exact different equal

theorem stable_negation_iff (mirrors : t.Mirrors assignment) (sound : t.Sound) :
    (Constraint.negation x y).Stable t ↔ (Constraint.negation x y).Holds assignment := by
  rw [Constraint.holds_negation_iff]
  simp only [Constraint.Stable, mirrors.spans_iff, ← mirrors.decides]
  constructor
  · rintro ⟨a, _, b, _, ⟨first, rfl⟩, ⟨second, rfl⟩, -, -, exact_⟩
    obtain ⟨-, equal, -⟩ := exact_ b second
    exact ⟨a, b, first, second, by omega⟩
  · rintro ⟨a, b, first, second, zero⟩
    have inRangeA := sound.inRange x a ((mirrors.holds_iff sound.canonical).2 first)
    have inRangeB := sound.inRange y b ((mirrors.holds_iff sound.canonical).2 second)
    have fitsB : Signed64.checked (-b) = some a :=
      Signed64.checked_eq_some_iff.2 ⟨(show -b = a by omega) ▸ inRangeA, by omega⟩
    have fitsA : Signed64.checked (-a) = some b :=
      Signed64.checked_eq_some_iff.2 ⟨(show -a = b by omega) ▸ inRangeB, by omega⟩
    refine ⟨a, a, b, b, ⟨first, rfl⟩, ⟨second, rfl⟩, ⟨?_, ?_, ?_⟩, ⟨?_, ?_, ?_⟩, ?_⟩
    · exact (Signed64.checked_eq_some_iff.1 fitsB).1
    · omega
    · simp [Signed64.opposite, fitsB]
    · exact (Signed64.checked_eq_some_iff.1 fitsA).1
    · omega
    · simp [Signed64.opposite, fitsA]
    · intro value given
      obtain rfl := Option.some.inj (second.symm.trans given)
      exact ⟨(Signed64.checked_eq_some_iff.1 fitsB).1, by omega, by omega⟩

theorem stable_notEqual_iff (mirrors : t.Mirrors assignment) (canonical : t.Canonical) :
    (Constraint.notEqual x y).Stable t ↔ (Constraint.notEqual x y).Holds assignment := by
  rw [Constraint.holds_notEqual_iff]
  simp only [Constraint.Stable, mirrors.exists_int?_iff]
  constructor
  · rintro ⟨⟨a, first⟩, ⟨b, second⟩, apart⟩
    exact ⟨a, b, first, second, (mirrors.apart_iff canonical first second).1 apart⟩
  · rintro ⟨a, b, first, second, different⟩
    exact ⟨⟨a, first⟩, ⟨b, second⟩, (mirrors.apart_iff canonical first second).2 different⟩

theorem stable_lessThan_iff (mirrors : t.Mirrors assignment) (sound : t.Sound) :
    (Constraint.lessThan x y).Stable t ↔ (Constraint.lessThan x y).Holds assignment := by
  rw [Constraint.holds_lessThan_iff]
  simp only [Constraint.Stable, mirrors.spans_iff]
  constructor
  · rintro ⟨a, _, b, _, ⟨first, rfl⟩, ⟨second, rfl⟩, ⟨-, -, less⟩, -⟩
    exact ⟨a, b, first, second, by omega⟩
  · rintro ⟨a, b, first, second, less⟩
    have inRangeA := sound.inRange x a ((mirrors.holds_iff sound.canonical).2 first)
    have inRangeB := sound.inRange y b ((mirrors.holds_iff sound.canonical).2 second)
    unfold Signed64.InRange at *
    exact ⟨a, a, b, b, ⟨first, rfl⟩, ⟨second, rfl⟩, by omega⟩

/-- The places of a list are apart pairwise if their values are. -/
theorem pairwise_apart_iff (mirrors : t.Mirrors assignment) (canonical : t.Canonical)
    {vars : List VarId} {values : List Int}
    (places : vars.map assignment.int? = values.map some) :
    vars.Pairwise t.Apart ↔ values.Nodup := by
  induction vars generalizing values with
  | nil =>
    obtain rfl : values = [] := by simpa using places.symm
    simp
  | cons x rest ih =>
    cases values with
    | nil => simp at places
    | cons a later =>
      simp only [List.map_cons, List.cons.injEq] at places
      obtain ⟨first, places⟩ := places
      rw [List.pairwise_cons, List.nodup_cons, ih places]
      refine and_congr_left fun _ => ⟨fun apart member => ?_, fun outside y member => ?_⟩
      · have given : some a ∈ rest.map assignment.int? := places ▸ List.mem_map.2 ⟨a, member, rfl⟩
        obtain ⟨y, inside, second⟩ := List.mem_map.1 given
        exact (mirrors.apart_iff canonical first second).1 (apart y inside) rfl
      · have given : assignment.int? y ∈ later.map some := places ▸ List.mem_map.2 ⟨y, member, rfl⟩
        obtain ⟨b, inside, second⟩ := List.mem_map.1 given
        apply (mirrors.apart_iff canonical first second.symm).2
        rintro rfl
        exact outside inside

theorem stable_allDifferent_iff (mirrors : t.Mirrors assignment) (canonical : t.Canonical)
    {vars : List VarId} :
    (Constraint.allDifferent vars).Stable t ↔ (Constraint.allDifferent vars).Holds assignment := by
  simp only [Constraint.Stable, Constraint.Holds, Constraint.scope, Constraint.Relates,
    mirrors.exists_int?_iff]
  constructor
  · rintro ⟨present, apart⟩
    obtain ⟨values, places⟩ : ∃ values : List Int, vars.map assignment.int? = values.map some := by
      refine ⟨vars.map fun x => (assignment.int? x).getD 0, ?_⟩
      rw [List.map_map]
      refine List.map_congr_left fun x member => ?_
      obtain ⟨value, given⟩ := present x member
      simp [given]
    exact ⟨values, places, (mirrors.pairwise_apart_iff canonical places).1 apart⟩
  · rintro ⟨values, places, nodup⟩
    refine ⟨fun x member => ?_, (mirrors.pairwise_apart_iff canonical places).2 nodup⟩
    have given : assignment.int? x ∈ values.map some := places ▸ List.mem_map.2 ⟨x, member, rfl⟩
    obtain ⟨value, -, second⟩ := List.mem_map.1 given
    exact ⟨value, second.symm⟩

/-- Bounds that were read of decided variables are their values, twice. -/
theorem forall₂_spans_iff (mirrors : t.Mirrors assignment)
    {terms : List VarId} {spans : List (Int × Int)} :
    List.Forall₂ (fun x (span : Int × Int) => t.Spans x span.1 span.2) terms spans ↔
      ∃ values : List Int, terms.map assignment.int? = values.map some ∧
        spans = values.map fun value => (value, value) := by
  induction terms generalizing spans with
  | nil =>
    constructor
    · rintro ⟨⟩
      exact ⟨[], rfl, rfl⟩
    · rintro ⟨values, places, rfl⟩
      obtain rfl : values = [] := by simpa using places.symm
      exact .nil
  | cons x rest ih =>
    rw [List.forall₂_cons_left_iff]
    constructor
    · rintro ⟨⟨a, b⟩, later, spans, others, rfl⟩
      obtain ⟨given, equal⟩ := mirrors.spans_iff.1 spans
      obtain rfl : a = b := equal
      obtain ⟨values, places, rfl⟩ := ih.1 others
      exact ⟨a :: values, by simp [given, places], rfl⟩
    · rintro ⟨values, places, rfl⟩
      cases values with
      | nil => simp at places
      | cons a later =>
        simp only [List.map_cons, List.cons.injEq] at places
        exact ⟨(a, a), _, mirrors.spans_iff.2 ⟨places.1, rfl⟩,
          ih.2 ⟨later, places.2, rfl⟩, rfl⟩

theorem stable_sumEquals_iff (mirrors : t.Mirrors assignment) (sound : t.Sound)
    {terms : List VarId} {total : VarId} :
    (Constraint.sumEquals terms total).Stable t ↔
      (Constraint.sumEquals terms total).Holds assignment := by
  rw [Constraint.holds_sumEquals_iff]
  simp only [Constraint.Stable, mirrors.forall₂_spans_iff]
  simp only [mirrors.spans_iff]
  have sums (values : List Int) :
      (values.map fun value => (value, value)).map Prod.fst = values ∧
        (values.map fun value => (value, value)).map Prod.snd = values := by
    simp [Function.comp_def]
  constructor
  · rintro ⟨_, sum, _, ⟨values, places, rfl⟩, ⟨given, rfl⟩, ⟨low, high⟩, parts⟩
    rw [(sums values).1] at low parts
    rw [(sums values).2] at high parts
    refine ⟨values, places, ?_⟩
    rw [given, Signed64.sumOf_eq_of_clamp (le_antisymm low high) fun value member => ?_]
    obtain ⟨lower, upper⟩ := parts (value, value) (List.mem_map.2 ⟨value, member, rfl⟩)
    exact le_antisymm lower upper
  · rintro ⟨values, places, given⟩
    refine ⟨values.map fun value => (value, value), _, _, ⟨values, places, rfl⟩, ⟨given, rfl⟩, ?_⟩
    rw [(sums values).1, (sums values).2]
    have inRange := sound.inRange total _ ((mirrors.holds_iff sound.canonical).2 given)
    rw [Signed64.clamp_of_inRange inRange]
    refine ⟨⟨le_rfl, le_rfl⟩, fun span member => ?_⟩
    obtain ⟨value, inside, rfl⟩ := List.mem_map.1 member
    have own : some value ∈ terms.map assignment.int? :=
      places ▸ List.mem_map.2 ⟨value, inside, rfl⟩
    obtain ⟨x, -, here⟩ := List.mem_map.1 own
    have inRange' := sound.inRange x value ((mirrors.holds_iff sound.canonical).2 here)
    simp only
    rw [show sumOf values - (sumOf values - value) = value by omega,
      Signed64.clamp_of_inRange inRange']
    exact ⟨le_rfl, le_rfl⟩

end Mirrors

end DomainTable

/-- A table that mirrors an assignment is stable for the constraints that this satisfies. -/
theorem Constraint.stable_iff_holds {t : DomainTable} {assignment : Assignment}
    (mirrors : t.Mirrors assignment) (sound : t.Sound) (c : Constraint) :
    c.Stable t ↔ c.Holds assignment := by
  cases c with
  | negation x y => exact mirrors.stable_negation_iff sound
  | notEqual x y => exact mirrors.stable_notEqual_iff sound.canonical
  | allDifferent vars => exact mirrors.stable_allDifferent_iff sound.canonical
  | lessThan x y => exact mirrors.stable_lessThan_iff sound
  | sumEquals terms total => exact mirrors.stable_sumEquals_iff sound

end StagedSearch
