/-
# Sizes of domains

The size of a domain is how many values it admits: integers, or sets between two bounds. It is
reported as a number of 64 bits, and the greatest of these stands for all that are greater.

A size of integers is added up interval by interval, and the sum never overflows. Canonical
intervals leave gaps, so either fewer values are counted than 64 bits can, or there is one interval
only, which is the whole signed range, and then it is the size of the interval that is cut off.
A size of sets is a power of two, and its exponent is what the bounds differ in. The exponent has 32
bits, and with as many undecided elements as these can count a set would pass for decided.
-/

import Mathlib.Data.Finset.Interval
import Mathlib.Data.Finset.Sort
import Mathlib.Data.Int.ConditionallyCompleteOrder
import Mathlib.Data.Int.Interval
import Mathlib.Data.Set.Card
import StagedSearch.Proofs.Domain.Order

namespace StagedSearch

namespace IntDomain

/-- The size is the number of values, as far as it can be reported. -/
structure Counted (d : IntDomain) : Prop where
  size : d.size = min {value | value ∈ d}.ncard Unsigned64.greatest
  /-- On the way to the sum nothing overflows. -/
  sums : ∀ first, first <+: d.intervals → totalSize Interval.size first ≤ Unsigned64.greatest
  /-- There are more values than are reported only if there are all. -/
  cut : d.size < {value | value ∈ d}.ncard ↔ d = interval Signed64.least Signed64.greatest
  single : d.size = 1 ↔ d.isSingleton = true

variable {d : IntDomain}

/-- The number of values is reported exactly unless it exceeds what can be reported. -/
theorem size_eq_count (few : d.count < Unsigned64.modulus) : d.size = d.count := by
  obtain ⟨intervals⟩ := d
  show totalSize Interval.size intervals = totalSize Interval.count intervals
  induction intervals with
  | nil => rfl
  | cons i rest ih =>
    simp only [count, totalSize_cons] at few ih ⊢
    have own : i.size = i.count := Unsigned64.saturate_of_le (by
      simp only [Unsigned64.modulus, Unsigned64.greatest] at *
      omega)
    rw [own, ih (by omega)]

/-- The number of values is reported exactly, or the greatest number that can be reported is. -/
theorem count_le_size (d : IntDomain) : d.count ≤ d.size ∨ Unsigned64.greatest ≤ d.size := by
  obtain ⟨intervals⟩ := d
  show totalSize Interval.count intervals ≤ totalSize Interval.size intervals ∨
    Unsigned64.greatest ≤ totalSize Interval.size intervals
  induction intervals with
  | nil => exact .inl (Nat.le_refl 0)
  | cons i rest ih =>
    have own : i.size = min i.count Unsigned64.greatest := rfl
    rw [totalSize_cons, totalSize_cons, own]
    omega

/-- A domain that holds the whole range is one interval. -/
theorem Canonical.eq_interval_of_full (canonical : d.Canonical) (inRange : d.InRange)
    (full : ∀ value, Signed64.InRange value → value ∈ d) :
    d = interval Signed64.least Signed64.greatest := by
  apply canonical.ext (canonical_interval _ _)
  intro value
  rw [mem_interval]
  exact ⟨inRange value, full value⟩

theorem Canonical.size_of_full (canonical : d.Canonical) (inRange : d.InRange)
    (full : ∀ value, Signed64.InRange value → value ∈ d) : d.size = Unsigned64.greatest := by
  rw [canonical.eq_interval_of_full inRange full]
  decide

theorem Canonical.ncard_eq_count (canonical : d.Canonical) :
    {value | value ∈ d}.ncard = d.count := by
  rw [← canonical.card_values, ← Set.ncard_coe_finset]
  congr 1
  ext value
  simp [mem_values]

/-- The signed range has as many values as there are numbers of 64 bits. -/
theorem card_range : (Finset.Icc Signed64.least Signed64.greatest).card = Unsigned64.modulus := by
  rw [Int.card_Icc]
  rfl

theorem InRange.subset_range (inRange : d.InRange) :
    d.values.toFinset ⊆ Finset.Icc Signed64.least Signed64.greatest := by
  intro value inside
  rw [List.mem_toFinset, mem_values] at inside
  exact Finset.mem_Icc.2 (inRange value inside)

/-- Only the whole range has more values than 64 bits can count. -/
theorem Canonical.eq_interval_of_count (canonical : d.Canonical) (inRange : d.InRange)
    (all : Unsigned64.modulus ≤ d.count) : d = interval Signed64.least Signed64.greatest := by
  have same : d.values.toFinset = Finset.Icc Signed64.least Signed64.greatest := by
    apply Finset.eq_of_subset_of_card_le inRange.subset_range
    rwa [card_range, canonical.card_values]
  apply canonical.eq_interval_of_full inRange
  intro value inside
  rw [← mem_values, ← List.mem_toFinset, same]
  exact Finset.mem_Icc.2 inside

theorem Canonical.size_eq_saturate (canonical : d.Canonical) (inRange : d.InRange) :
    d.size = Unsigned64.saturate d.count := by
  by_cases few : d.count < Unsigned64.modulus
  · rw [size_eq_count few, Unsigned64.saturate_of_le (Nat.le_of_lt_succ few)]
  · rw [canonical.eq_interval_of_count inRange (Nat.le_of_not_lt few)]
    rfl

/-! ## The first intervals -/

theorem Canonical.of_prefix {first : List Interval} (canonical : d.Canonical)
    (begins : first <+: d.intervals) : Canonical ⟨first⟩ where
  nonempty i member := canonical.nonempty i (begins.subset member)
  separated := canonical.separated.sublist begins.sublist

theorem InRange.of_prefix {first : List Interval} (inRange : d.InRange)
    (begins : first <+: d.intervals) : InRange ⟨first⟩ := by
  intro value inside
  obtain ⟨i, member, bounds⟩ := mem_iff.1 inside
  exact inRange value (mem_iff.2 ⟨i, begins.subset member, bounds⟩)

/-- A part of a sum of sizes is the size of a domain itself. -/
theorem Canonical.totalSize_le (canonical : d.Canonical) (inRange : d.InRange)
    {first : List Interval} (begins : first <+: d.intervals) :
    totalSize Interval.size first ≤ Unsigned64.greatest := by
  have part := (canonical.of_prefix begins).size_eq_saturate (inRange.of_prefix begins)
  exact part.trans_le (Nat.min_le_right _ _)

theorem Canonical.count_eq_one_iff (canonical : d.Canonical) :
    d.count = 1 ↔ d.isSingleton = true := by
  rw [← canonical.ncard_eq_count, Set.ncard_eq_one, canonical.isSingleton_iff]
  apply exists_congr
  intro value
  exact Set.ext_iff

theorem Canonical.counted (canonical : d.Canonical) (inRange : d.InRange) : d.Counted where
  size := by
    rw [canonical.size_eq_saturate inRange, canonical.ncard_eq_count]
    rfl
  sums first := canonical.totalSize_le inRange
  cut := by
    rw [canonical.size_eq_saturate inRange, canonical.ncard_eq_count]
    constructor
    · intro more
      apply canonical.eq_interval_of_count inRange
      have : Unsigned64.modulus = Unsigned64.greatest + 1 := rfl
      simp only [Unsigned64.saturate] at more
      omega
    · rintro rfl
      decide
  single := by
    rw [← canonical.count_eq_one_iff, canonical.size_eq_saturate inRange]
    simp only [Unsigned64.saturate, Unsigned64.greatest]
    omega

end IntDomain

namespace SetDomain

/-- The size is the number of sets between the bounds, as far as it can be reported: each undecided
element doubles it. -/
structure Counted (d : SetDomain) : Prop where
  /-- The lower bound is not larger than the upper one, and the elements that it lacks are the
  undecided ones. -/
  apart : d.glb.length + d.undecided.length = d.lub.length
  sets : {elements | d.Admits elements}.ncard = 2 ^ d.undecided.length
  size : d.size = min (2 ^ d.undecided.length) Unsigned64.greatest
  single : d.size = 1 ↔ d.isSingleton = true

variable {d : SetDomain}

theorem Canonical.length_undecided (canonical : d.Canonical) :
    d.glb.length + d.undecided.length = d.lub.length := by
  have lower : d.glb = d.lub.filter (d.glb.contains ·) := by
    apply canonical.lower.ext (canonical.upper.filter _)
    intro element
    rw [List.mem_filter, List.contains_iff_mem]
    exact ⟨fun inside => ⟨canonical.nested element inside, inside⟩, And.right⟩
  rw [List.length_eq_length_filter_add (l := d.lub) (d.glb.contains ·), ← lower]
  rfl

/-- Read as finite sets, those that are admitted are the ones between the bounds. -/
theorem image_admits (d : SetDomain) :
    List.toFinset '' {elements | d.Admits elements} =
      ↑(Finset.Icc d.glb.toFinset d.lub.toFinset) := by
  ext set
  rw [Finset.coe_Icc, Set.mem_Icc, Set.mem_image]
  constructor
  · rintro ⟨elements, admits, rfl⟩
    constructor
    · intro element inside
      exact List.mem_toFinset.2 (admits.above element (List.mem_toFinset.1 inside))
    · intro element inside
      exact List.mem_toFinset.2 (admits.below element (List.mem_toFinset.1 inside))
  · rintro ⟨above, below⟩
    have ascending : Elements.Ascending (set.sort (· ≤ ·)) := set.sortedLT_sort.pairwise
    refine ⟨set.sort (· ≤ ·), ⟨ascending, ?_, ?_⟩, set.sort_toFinset _⟩
    · intro element inside
      exact (Finset.mem_sort _).2 (above (List.mem_toFinset.2 inside))
    · intro element inside
      exact List.mem_toFinset.1 (below ((Finset.mem_sort _).1 inside))

/-- There are as many admissible sets as there are subsets of the undecided elements. -/
theorem Canonical.ncard_admits (canonical : d.Canonical) :
    {elements | d.Admits elements}.ncard = 2 ^ d.undecided.length := by
  have injective : Set.InjOn List.toFinset {elements | d.Admits elements} := by
    intro first admits second admits' same
    apply admits.ascending.ext admits'.ascending
    intro element
    rw [← List.mem_toFinset, same, List.mem_toFinset]
  have nested : d.glb.toFinset ⊆ d.lub.toFinset := by
    intro element inside
    exact List.mem_toFinset.2 (canonical.nested element (List.mem_toFinset.1 inside))
  rw [← injective.ncard_image, image_admits, Set.ncard_coe_finset,
    Finset.card_Icc_finset nested, List.toFinset_card_of_nodup canonical.upper.nodup,
    List.toFinset_card_of_nodup canonical.lower.nodup, ← canonical.length_undecided,
    Nat.add_sub_cancel_left]

theorem Canonical.size_eq_ite (canonical : d.Canonical) :
    d.size = if d.undecided.length % Unsigned32.modulus < 64 then
      2 ^ (d.undecided.length % Unsigned32.modulus) else Unsigned64.greatest := by
  have free : d.lub.length - d.glb.length = d.undecided.length := by
    have := canonical.length_undecided
    omega
  unfold size
  rw [free]
  rfl

theorem Canonical.size_eq (canonical : d.Canonical)
    (few : d.undecided.length < Unsigned32.modulus) :
    d.size = min (2 ^ d.undecided.length) Unsigned64.greatest := by
  rw [canonical.size_eq_ite, Nat.mod_eq_of_lt few]
  by_cases narrow : d.undecided.length < 64
  · rw [if_pos narrow, Nat.min_eq_left]
    calc 2 ^ d.undecided.length ≤ 2 ^ 63 :=
          Nat.pow_le_pow_right (by decide) (Nat.le_of_lt_succ narrow)
      _ ≤ Unsigned64.greatest := by decide
  · rw [if_neg narrow, Nat.min_eq_right]
    calc Unsigned64.greatest ≤ 2 ^ 64 := by decide
      _ ≤ 2 ^ d.undecided.length := Nat.pow_le_pow_right (by decide) (Nat.le_of_not_lt narrow)

/-- With as many undecided elements as 32 bits can count, the size is that of a decided set. -/
theorem Canonical.size_of_modulus (canonical : d.Canonical)
    (many : d.undecided.length = Unsigned32.modulus) : d.size = 1 ∧ d.isSingleton = false := by
  constructor
  · rw [canonical.size_eq_ite, many, Nat.mod_self]
    rfl
  · rw [← Bool.not_eq_true, canonical.isSingleton_iff_undecided, ← List.length_eq_zero_iff, many]
    decide

theorem Canonical.counted (canonical : d.Canonical)
    (few : d.undecided.length < Unsigned32.modulus) : d.Counted where
  apart := canonical.length_undecided
  sets := canonical.ncard_admits
  size := canonical.size_eq few
  single := by
    rw [canonical.size_eq few, canonical.isSingleton_iff_undecided, ← List.length_eq_zero_iff]
    by_cases none : d.undecided.length = 0
    · rw [none]
      decide
    · have two : 2 ≤ 2 ^ d.undecided.length := Nat.le_self_pow none 2
      simp only [Unsigned64.greatest]
      omega

end SetDomain

namespace Domain

/-- What 64 bits, or 32 bits for the elements of a set, have room for. -/
def Small : Domain → Prop
  | .int d => d.InRange
  | .set d => d.undecided.length < Unsigned32.modulus

/-- The size is the number of what is admitted, as far as it can be reported. -/
def Counted : Domain → Prop
  | .int d => d.Counted
  | .set d => d.Counted

/-- The size of a canonical domain is the number of what it admits, up to the greatest number that
can be reported. -/
theorem counted_of_small {d : Domain} (canonical : d.Canonical) (small : d.Small) :
    d.Counted := by
  cases d with
  | int d => exact IntDomain.Canonical.counted canonical small
  | set d => exact SetDomain.Canonical.counted canonical small

/-- The whole range, of which one value is not reported, and a set with two undecided elements. -/
theorem counted_of_small_range :
    (IntDomain.interval Signed64.least Signed64.greatest).Counted ∧
      (IntDomain.interval Signed64.least Signed64.greatest).size = Unsigned64.greatest ∧
      SetDomain.Counted ⟨[1], [1, 2, 3]⟩ ∧ SetDomain.size ⟨[1], [1, 2, 3]⟩ = 4 := by
  have range : (IntDomain.interval Signed64.least Signed64.greatest).InRange := by
    intro value inside
    exact IntDomain.mem_interval.1 inside
  have bounds : SetDomain.Canonical ⟨[1], [1, 2, 3]⟩ :=
    SetDomain.Canonical.ofBounds? (show SetDomain.ofBounds? [1] [1, 2, 3] = _ from rfl)
  have few : (SetDomain.undecided ⟨[1], [1, 2, 3]⟩).length < Unsigned32.modulus := by decide
  have whole := counted_of_small (d := .int _) (IntDomain.canonical_interval _ _) range
  have sets := counted_of_small (d := .set ⟨[1], [1, 2, 3]⟩) bounds few
  exact ⟨whole, by decide, sets, by decide⟩

end Domain

end StagedSearch
