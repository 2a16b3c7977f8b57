/-
# Values of integer domains

A canonical list of intervals is read here as the set of its values. The two ends of the
list are the least and the greatest value, a domain is decided when it has exactly one
value, and canonical lists with equal values are equal. Counting follows the set as well: a
smaller set has a smaller count, which is what lets propagation end.
-/

import Mathlib.Data.Finset.Card
import Mathlib.Data.List.Pairwise
import StagedSearch.Domain.Canonical
import StagedSearch.Proofs.Domain.Listing

namespace StagedSearch

namespace IntDomain

def HasValue (d : IntDomain) : Prop := ∃ value, value ∈ d

theorem Canonical.tail {i : Interval} {rest : List Interval} (canonical : Canonical ⟨i :: rest⟩) :
    Canonical ⟨rest⟩ :=
  (canonical_cons.1 canonical).2.2

/-- The first interval's lower end is one of the values. -/
theorem Canonical.min_mem {i : Interval} {rest : List Interval}
    (canonical : Canonical ⟨i :: rest⟩) : i.min ∈ (⟨i :: rest⟩ : IntDomain) :=
  mem_cons.2 (.inl ⟨le_rfl, (canonical_cons.1 canonical).1⟩)

/-- No value is below the first interval. -/
theorem Canonical.min_le {i : Interval} {rest : List Interval} {value : Int}
    (canonical : Canonical ⟨i :: rest⟩) (inside : value ∈ (⟨i :: rest⟩ : IntDomain)) :
    i.min ≤ value := by
  rcases mem_cons.1 inside with ⟨low, -⟩ | later
  · exact low
  · have filled := (canonical_cons.1 canonical).1
    have beyond := canonical.lt_of_mem later
    omega

/-- The value behind the first interval is missing. -/
theorem Canonical.max_succ_not_mem {i : Interval} {rest : List Interval}
    (canonical : (⟨i :: rest⟩ : IntDomain).Canonical) :
    i.max + 1 ∉ (⟨i :: rest⟩ : IntDomain) := by
  intro inside
  rcases mem_cons.1 inside with ⟨-, high⟩ | inside
  · omega
  · have beyond := canonical.lt_of_mem inside
    omega

/-- The later intervals have the values behind the first one. -/
theorem Canonical.mem_tail_iff {i : Interval} {rest : List Interval} {value : Int}
    (canonical : (⟨i :: rest⟩ : IntDomain).Canonical) :
    value ∈ (⟨rest⟩ : IntDomain) ↔ value ∈ (⟨i :: rest⟩ : IntDomain) ∧ i.max < value := by
  constructor
  · intro inside
    have beyond := canonical.lt_of_mem inside
    exact ⟨mem_cons.2 (.inr inside), by omega⟩
  · rintro ⟨inside, beyond⟩
    rcases mem_cons.1 inside with ⟨-, high⟩ | inside
    · omega
    · exact inside

/-- Canonical lists with the same values are the same list. -/
theorem Canonical.ext {d e : IntDomain} (left : d.Canonical) (right : e.Canonical)
    (same : ∀ value, value ∈ d ↔ value ∈ e) : d = e := by
  obtain ⟨first⟩ := d
  obtain ⟨second⟩ := e
  congr
  induction first generalizing second with
  | nil =>
    cases second with
    | nil => rfl
    | cons j later => exact absurd ((same j.min).2 right.min_mem) (by simp)
  | cons i rest ih =>
    cases second with
    | nil => exact absurd ((same i.min).1 left.min_mem) (by simp)
    | cons j later =>
      have filledLeft := (canonical_cons.1 left).1
      have filledRight := (canonical_cons.1 right).1
      have lows : i.min = j.min :=
        le_antisymm (left.min_le ((same j.min).2 right.min_mem))
          (right.min_le ((same i.min).1 left.min_mem))
      -- Neither interval reaches over the gap behind the other one.
      have highs : i.max = j.max := by
        rcases lt_trichotomy i.max j.max with shorter | equal | longer
        · have inside : i.max + 1 ∈ (⟨j :: later⟩ : IntDomain) :=
            mem_cons.2 (.inl ⟨by omega, by omega⟩)
          exact absurd ((same _).2 inside) left.max_succ_not_mem
        · exact equal
        · have inside : j.max + 1 ∈ (⟨i :: rest⟩ : IntDomain) :=
            mem_cons.2 (.inl ⟨by omega, by omega⟩)
          exact absurd ((same _).1 inside) right.max_succ_not_mem
      have rests (value : Int) : value ∈ (⟨rest⟩ : IntDomain) ↔ value ∈ (⟨later⟩ : IntDomain) := by
        rw [left.mem_tail_iff, right.mem_tail_iff, same, highs]
      have first : i = j := by
        cases i
        cases j
        simp_all
      rw [first, ih left.tail later right.tail rests]

/-! ## The ends of a domain -/

theorem isEmpty_iff {d : IntDomain} : d.isEmpty = true ↔ d.intervals = [] := by
  simp [isEmpty]

theorem Canonical.isEmpty_eq_false_iff {d : IntDomain} (canonical : d.Canonical) :
    d.isEmpty = false ↔ d.HasValue := by
  obtain ⟨intervals⟩ := d
  cases intervals with
  | nil => simp [isEmpty, HasValue]
  | cons i rest => exact ⟨fun _ => ⟨i.min, canonical.min_mem⟩, fun _ => rfl⟩

theorem Canonical.min?_eq_some_iff {d : IntDomain} (canonical : d.Canonical) {low : Int} :
    d.min? = some low ↔ low ∈ d ∧ ∀ value ∈ d, low ≤ value := by
  obtain ⟨intervals⟩ := d
  cases intervals with
  | nil => simp [min?]
  | cons i rest =>
    constructor
    · intro first
      obtain rfl : i.min = low := by simpa [min?] using first
      exact ⟨canonical.min_mem, fun value inside => canonical.min_le inside⟩
    · rintro ⟨inside, least⟩
      have : i.min = low := le_antisymm (canonical.min_le inside) (least _ canonical.min_mem)
      simp [min?, this]

/-- The last interval of a canonical list ends at its greatest value. -/
theorem Canonical.getLast_max {i : Interval} {rest : List Interval}
    (canonical : Canonical ⟨i :: rest⟩) :
    ((i :: rest).getLast (by simp)).max ∈ (⟨i :: rest⟩ : IntDomain) ∧
      ∀ value ∈ (⟨i :: rest⟩ : IntDomain), value ≤ ((i :: rest).getLast (by simp)).max := by
  induction rest generalizing i with
  | nil =>
    have filled := (canonical_cons.1 canonical).1
    exact ⟨by simpa using filled, by simp⟩
  | cons j later ih =>
    obtain ⟨inside, greatest⟩ := ih canonical.tail
    rw [List.getLast_cons (by simp)]
    refine ⟨mem_cons.2 (.inr inside), fun value member => ?_⟩
    rcases mem_cons.1 member with ⟨-, high⟩ | member
    · have beyond := canonical.lt_of_mem inside
      omega
    · exact greatest value member

theorem Canonical.max?_eq_some_iff {d : IntDomain} (canonical : d.Canonical) {high : Int} :
    d.max? = some high ↔ high ∈ d ∧ ∀ value ∈ d, value ≤ high := by
  obtain ⟨intervals⟩ := d
  cases intervals with
  | nil => simp [max?]
  | cons i rest =>
    obtain ⟨inside, greatest⟩ := canonical.getLast_max
    constructor
    · intro last
      obtain rfl : ((i :: rest).getLast (by simp)).max = high := by
        simpa [max?, List.getLast?_eq_some_getLast] using last
      exact ⟨inside, greatest⟩
    · rintro ⟨member, above⟩
      have : ((i :: rest).getLast (by simp)).max = high :=
        le_antisymm (above _ inside) (greatest _ member)
      simp [max?, List.getLast?_eq_some_getLast, this]

/-- A domain that has values has a least and a greatest one. -/
theorem Canonical.exists_bounds {d : IntDomain} (canonical : d.Canonical) (filled : d.HasValue) :
    ∃ low high, d.min? = some low ∧ d.max? = some high := by
  obtain ⟨intervals⟩ := d
  cases intervals with
  | nil => simp [HasValue] at filled
  | cons i rest => exact ⟨i.min, _, rfl, by rw [max?, List.getLast?_cons]; rfl⟩

/-- A domain is decided when it is the interval of one value. -/
theorem value?_eq_some_iff_interval {d : IntDomain} {value : Int} :
    d.value? = some value ↔ d = interval value value := by
  obtain ⟨intervals⟩ := d
  constructor
  · intro decided
    unfold value? at decided
    split at decided
    · rename_i i single
      change intervals = [i] at single
      subst single
      obtain ⟨low, high⟩ := i
      split at decided
      · rename_i equal
        obtain rfl : low = high := equal
        cases decided
        simp [interval]
      · cases decided
    · cases decided
  · intro equal
    rw [equal]
    simp [value?, interval]

/-- A domain is decided when it holds exactly one value. -/
theorem Canonical.value?_eq_some_iff {d : IntDomain} (canonical : d.Canonical) {value : Int} :
    d.value? = some value ↔ ∀ other, other ∈ d ↔ other = value := by
  rw [value?_eq_some_iff_interval]
  constructor
  · rintro rfl other
    rw [mem_interval]
    omega
  · intro only
    refine canonical.ext (canonical_interval _ _) fun other => ?_
    rw [only, mem_interval]
    omega

theorem Canonical.isSingleton_iff {d : IntDomain} (canonical : d.Canonical) :
    d.isSingleton = true ↔ ∃ value, ∀ other, other ∈ d ↔ other = value := by
  rw [isSingleton, Option.isSome_iff_exists]
  exact exists_congr fun value => canonical.value?_eq_some_iff

/-- The domain of a single value. -/
theorem value?_interval (value : Int) : (interval value value).value? = some value := by
  simp [value?, interval]

/-! ## Counting values -/

theorem mem_smallest_count {i : Interval} {value : Int} :
    value ∈ i.values ↔ i.min ≤ value ∧ value ≤ i.max := by
  simp only [Interval.values, Interval.smallest, Interval.count, List.mem_map, List.mem_range]
  constructor
  · rintro ⟨offset, bounded, rfl⟩
    change offset < min _ _ at bounded
    omega
  · rintro ⟨low, high⟩
    refine ⟨(value - i.min).toNat, ?_, by omega⟩
    change _ < min _ _
    omega

theorem mem_values {d : IntDomain} {value : Int} : value ∈ d.values ↔ value ∈ d := by
  simp only [values, List.mem_flatMap, mem_smallest_count, mem_iff]

theorem length_values (d : IntDomain) : d.values.length = d.count := by
  obtain ⟨intervals⟩ := d
  induction intervals with
  | nil => rfl
  | cons i rest ih => simpa [values, count, i.length_values] using ih

theorem Interval.pairwise_values (i : Interval) : i.values.Pairwise (· < ·) := by
  rw [Interval.values, Interval.smallest, List.pairwise_map]
  exact List.pairwise_lt_range.imp fun smaller => by omega

/-- The values of a canonical list are listed in ascending order, each once. -/
theorem Canonical.pairwise_values {d : IntDomain} (canonical : d.Canonical) :
    d.values.Pairwise (· < ·) := by
  obtain ⟨intervals⟩ := d
  induction intervals with
  | nil => exact .nil
  | cons i rest ih =>
    refine List.pairwise_append.2 ⟨Interval.pairwise_values i, ih canonical.tail, ?_⟩
    intro first inside second later
    have high := (mem_smallest_count.1 inside).2
    have beyond := canonical.lt_of_mem (mem_values.1 later)
    omega

theorem Canonical.nodup_values {d : IntDomain} (canonical : d.Canonical) : d.values.Nodup :=
  canonical.pairwise_values.imp fun smaller => ne_of_lt smaller

theorem Canonical.card_values {d : IntDomain} (canonical : d.Canonical) :
    d.values.toFinset.card = d.count := by
  rw [List.toFinset_card_of_nodup canonical.nodup_values, length_values]

/-- A proper part of a domain has fewer values. -/
theorem Canonical.count_lt {d e : IntDomain} (left : d.Canonical) (right : e.Canonical)
    (within : ∀ value ∈ d, value ∈ e) (different : d ≠ e) : d.count < e.count := by
  rw [← left.card_values, ← right.card_values]
  refine Finset.card_lt_card ⟨fun value inside => ?_, fun back => different ?_⟩
  · simp only [List.mem_toFinset, mem_values] at inside ⊢
    exact within value inside
  · refine left.ext right fun value => ⟨within value, fun inside => ?_⟩
    have := back (List.mem_toFinset.2 (mem_values.2 inside))
    exact mem_values.1 (List.mem_toFinset.1 this)

end IntDomain

end StagedSearch
