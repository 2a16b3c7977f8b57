/-
# The order of domains

One domain lies within another when it admits no more: fewer integers, or tighter bounds of
a set. Between canonical domains this is a partial order, a proper part weighs less, and
what lies within a decided domain and has a value is that domain.
-/

import Mathlib.Data.List.Sort
import StagedSearch.Proofs.Domain.Values

namespace StagedSearch

namespace Elements

/-- Ascending lists with the same elements are the same list. -/
theorem Ascending.ext {first second : Elements} (left : first.Ascending)
    (right : second.Ascending) (same : ∀ element, element ∈ first ↔ element ∈ second) :
    first = second :=
  List.Pairwise.eq_of_mem_iff left right same

theorem Ascending.nodup {set : Elements} (ascending : set.Ascending) : set.Nodup :=
  ascending.imp fun smaller => ne_of_lt smaller

end Elements

namespace SetDomain

theorem mem_undecided {d : SetDomain} {element : Int} :
    element ∈ d.undecided ↔ element ∈ d.lub ∧ element ∉ d.glb := by
  simp [undecided]

theorem Canonical.nodup_undecided {d : SetDomain} (canonical : d.Canonical) :
    d.undecided.Nodup :=
  canonical.upper.nodup.filter _

/-- A set is decided when its two bounds are the same list. -/
theorem Canonical.isSingleton_iff {d : SetDomain} (canonical : d.Canonical) :
    d.isSingleton = true ↔ d.glb = d.lub := by
  constructor
  · intro decided
    have equal : d.glb.length = d.lub.length := by simpa [isSingleton] using decided
    have within : d.glb.Subperm d.lub :=
      List.subperm_of_subset canonical.lower.nodup canonical.nested
    have perm := within.perm_of_length_le equal.ge
    exact canonical.lower.ext canonical.upper fun element => perm.mem_iff
  · intro equal
    simp [isSingleton, equal]

/-- A set that is not decided has an element to decide. -/
theorem Canonical.isSingleton_iff_undecided {d : SetDomain} (canonical : d.Canonical) :
    d.isSingleton = true ↔ d.undecided = [] := by
  rw [canonical.isSingleton_iff]
  constructor
  · intro equal
    simp [undecided, equal]
  · intro none
    refine canonical.lower.ext canonical.upper fun element => ⟨canonical.nested element, ?_⟩
    intro inside
    by_contra outside
    have : element ∈ d.undecided := mem_undecided.2 ⟨inside, outside⟩
    simp [none] at this

end SetDomain

namespace Domain

/-- Whether something is admitted. Between the bounds of a set there always is a set. -/
def HasValue : Domain → Prop
  | .int d => d.HasValue
  | .set _ => True

/-- Whether the first domain admits no more than the second. -/
def Within : Domain → Domain → Prop
  | .int d, .int e => ∀ value ∈ d, value ∈ e
  | .set d, .set e => (∀ element ∈ e.glb, element ∈ d.glb) ∧ ∀ element ∈ d.lub, element ∈ e.lub
  | _, _ => False

@[simp]
theorem within_int {d e : IntDomain} :
    (Domain.int d).Within (.int e) ↔ ∀ value ∈ d, value ∈ e := Iff.rfl

@[simp]
theorem within_set {d e : SetDomain} :
    (Domain.set d).Within (.set e) ↔
      (∀ element ∈ e.glb, element ∈ d.glb) ∧ ∀ element ∈ d.lub, element ∈ e.lub := Iff.rfl

theorem Within.refl (d : Domain) : d.Within d := by
  cases d with
  | int d => exact fun _ inside => inside
  | set d => exact ⟨fun _ inside => inside, fun _ inside => inside⟩

theorem Within.trans {d e f : Domain} (first : d.Within e) (second : e.Within f) :
    d.Within f := by
  match d, e, f with
  | .int _, .int _, .int _ => exact fun value inside => second value (first value inside)
  | .set _, .set _, .set _ =>
    exact ⟨fun element inside => first.1 element (second.1 element inside),
      fun element inside => second.2 element (first.2 element inside)⟩

theorem Within.antisymm {d e : Domain} (left : d.Canonical) (right : e.Canonical)
    (first : d.Within e) (second : e.Within d) : d = e := by
  cases d with
  | int d =>
    cases e with
    | int e => rw [left.ext right fun value => ⟨first value, second value⟩]
    | set e => exact first.elim
  | set d =>
    cases e with
    | int e => exact first.elim
    | set e =>
      have lower : d.glb = e.glb :=
        left.lower.ext right.lower fun element => ⟨second.1 element, first.1 element⟩
      have upper : d.lub = e.lub :=
        left.upper.ext right.upper fun element => ⟨first.2 element, second.2 element⟩
      cases d
      cases e
      simp_all

theorem undecided_subset {d e : SetDomain} (within : (Domain.set d).Within (.set e)) :
    d.undecided ⊆ e.undecided := by
  intro element open_
  obtain ⟨inside, outside⟩ := SetDomain.mem_undecided.1 open_
  exact SetDomain.mem_undecided.2
    ⟨within.2 element inside, fun decided => outside (within.1 element decided)⟩

/-- A proper part weighs less. For sets the weight is the number of undecided elements, and
a bound that moves decides one. -/
theorem Within.weight_lt {d e : Domain} (left : d.Canonical) (right : e.Canonical)
    (within : d.Within e) (different : d ≠ e) : d.weight < e.weight := by
  cases d with
  | int d =>
    cases e with
    | int e =>
      exact IntDomain.Canonical.count_lt left right within fun equal => different (by rw [equal])
    | set e => exact within.elim
  | set d =>
    cases e with
    | int e => exact within.elim
    | set e =>
      have nodup := SetDomain.Canonical.nodup_undecided left
      have subset := undecided_subset within
      refine lt_of_le_of_ne (nodup.length_le_of_subset subset) fun equal => different ?_
      have perm := (List.subperm_of_subset nodup subset).perm_of_length_le equal.ge
      -- With the same undecided elements neither bound can have moved.
      refine within.antisymm left right ⟨fun element inside => ?_, fun element inside => ?_⟩
      · by_contra outside
        have upper := within.2 element (left.nested element inside)
        have moved := perm.mem_iff.2 (SetDomain.mem_undecided.2 ⟨upper, outside⟩)
        exact (SetDomain.mem_undecided.1 moved).2 inside
      · by_contra outside
        have lower : element ∉ e.glb := fun decided =>
          outside (left.nested element (within.1 element decided))
        have moved := perm.mem_iff.2 (SetDomain.mem_undecided.2 ⟨inside, lower⟩)
        exact outside (SetDomain.mem_undecided.1 moved).1

theorem HasValue.of_isSingleton {d : Domain} (canonical : d.Canonical)
    (decided : d.isSingleton = true) : d.HasValue := by
  cases d with
  | int d =>
    obtain ⟨value, only⟩ := (IntDomain.Canonical.isSingleton_iff canonical).1 decided
    exact ⟨value, (only value).2 rfl⟩
  | set d => trivial

/-- What lies within a decided domain and has a value is that domain. -/
theorem Within.eq_of_isSingleton {d e : Domain} (left : d.Canonical) (right : e.Canonical)
    (within : d.Within e) (filled : d.HasValue) (decided : e.isSingleton = true) : d = e := by
  cases d with
  | int d =>
    cases e with
    | int e =>
      obtain ⟨value, only⟩ := (IntDomain.Canonical.isSingleton_iff right).1 decided
      obtain ⟨other, inside⟩ := filled
      have same : other = value := (only other).1 (within other inside)
      refine Within.antisymm left right within fun v member => ?_
      rwa [(only v).1 member, ← same]
    | set e => exact within.elim
  | set d =>
    cases e with
    | int e => exact within.elim
    | set e =>
      have equal := (SetDomain.Canonical.isSingleton_iff right).1 decided
      refine within.antisymm left right ⟨fun element inside => ?_, fun element inside => ?_⟩
      · rw [equal]
        exact within.2 element (left.nested element inside)
      · exact left.nested element (within.1 element (equal ▸ inside))

end Domain

end StagedSearch
