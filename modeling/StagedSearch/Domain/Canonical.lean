/-
# Canonical domains

What a domain stands for is the set of its values; what it is made of is a list. This
module says which lists are canonical, and that every operation keeps them so. It also says
what each operation does to the set of values (`mem_interval`, `mem_insert`, `mem_remove`,
`mem_restrict` and their like), so that nothing else has to look at the lists.

Nothing here bounds the values: the signed range enters where a store promises it.
-/

import StagedSearch.Domain.Basic

namespace StagedSearch

namespace IntDomain

/-- The intervals are not empty and ascend, and a value is missing between any two. -/
structure Canonical (d : IntDomain) : Prop where
  nonempty : ∀ i ∈ d.intervals, i.min ≤ i.max
  separated : d.intervals.Pairwise fun i j => i.max + 1 < j.min

def InRange (d : IntDomain) : Prop := ∀ value ∈ d, Signed64.InRange value

theorem mem_iff {d : IntDomain} {value : Int} :
    value ∈ d ↔ ∃ i ∈ d.intervals, i.min ≤ value ∧ value ≤ i.max := by
  show d.contains value = true ↔ _
  simp [contains, Interval.contains]

@[simp]
theorem mem_nil {value : Int} : value ∈ (⟨[]⟩ : IntDomain) ↔ False := by
  simp [mem_iff]

@[simp]
theorem mem_cons {i : Interval} {rest : List Interval} {value : Int} :
    value ∈ (⟨i :: rest⟩ : IntDomain) ↔
      (i.min ≤ value ∧ value ≤ i.max) ∨ value ∈ (⟨rest⟩ : IntDomain) := by
  simp [mem_iff]

theorem mem_interval {low high value : Int} :
    value ∈ interval low high ↔ low ≤ value ∧ value ≤ high := by
  unfold interval
  split
  · simp
  · simp
    omega

theorem canonical_nil : Canonical ⟨[]⟩ := ⟨by simp, by simp⟩

theorem canonical_cons {i : Interval} {rest : List Interval} :
    Canonical ⟨i :: rest⟩ ↔
      i.min ≤ i.max ∧ (∀ j ∈ rest, i.max + 1 < j.min) ∧ Canonical ⟨rest⟩ := by
  constructor
  · rintro ⟨nonempty, separated⟩
    obtain ⟨first, later⟩ := List.pairwise_cons.1 separated
    exact ⟨nonempty i (by simp), first, fun j inside => nonempty j (by simp [inside]), later⟩
  · rintro ⟨filled, first, nonempty, separated⟩
    exact ⟨by simpa using ⟨filled, nonempty⟩, List.pairwise_cons.2 ⟨first, separated⟩⟩

theorem canonical_interval (low high : Int) : Canonical (interval low high) := by
  unfold interval
  split
  · exact canonical_cons.2 ⟨by assumption, by simp, canonical_nil⟩
  · exact canonical_nil

/-- What is beyond a canonical list's first interval is beyond its values. -/
theorem Canonical.lt_of_mem {i : Interval} {rest : List Interval} {value : Int}
    (canonical : Canonical ⟨i :: rest⟩) (inside : value ∈ (⟨rest⟩ : IntDomain)) :
    i.max + 1 < value := by
  obtain ⟨j, member, low, -⟩ := mem_iff.1 inside
  have := (canonical_cons.1 canonical).2.1 j member
  omega

/-- The first interval of a list after an insertion begins no earlier than the inserted
value and the intervals that were there. -/
theorem lt_of_mem_insertInto {bound value : Int} {intervals : List Interval}
    (below : bound < value) (separated : ∀ j ∈ intervals, bound < j.min) :
    ∀ j ∈ insertInto value intervals, bound < j.min := by
  induction intervals with
  | nil => simpa [insertInto] using below
  | cons i rest ih =>
    have later : ∀ j ∈ rest, bound < j.min := fun j member => separated j (by simp [member])
    have first : bound < i.min := separated i (by simp)
    unfold insertInto
    split
    · simpa using ⟨below, first, later⟩
    split
    · simpa using ⟨below, later⟩
    split
    · simpa using ⟨first, later⟩
    split
    · split
      · simpa using first
      · split
        · simp only [List.mem_cons, forall_eq_or_imp] at later ⊢
          exact ⟨first, later.2⟩
        · simp only [List.mem_cons, forall_eq_or_imp] at later ⊢
          exact ⟨first, later⟩
    · simpa using ⟨first, ih later⟩

theorem mem_insertInto {value : Int} {intervals : List Interval}
    (canonical : Canonical ⟨intervals⟩) (other : Int) :
    other ∈ (⟨insertInto value intervals⟩ : IntDomain) ↔
      other = value ∨ other ∈ (⟨intervals⟩ : IntDomain) := by
  induction intervals with
  | nil =>
    simp only [insertInto, mem_cons, mem_nil]
    grind
  | cons i rest ih =>
    obtain ⟨filled, first, later⟩ := canonical_cons.1 canonical
    unfold insertInto
    split
    · simp only [mem_cons]
      grind
    split
    · simp only [mem_cons]
      grind
    split
    · simp only [mem_cons]
      grind
    split
    · split
      · simp only [mem_cons]
        grind
      · have := first _ (List.mem_cons_self ..)
        split
        · have filled' := (canonical_cons.1 later).1
          simp only [mem_cons]
          grind
        · simp only [mem_cons]
          grind
    · simp only [mem_cons, ih later]
      grind

theorem Canonical.insertInto {value : Int} {intervals : List Interval}
    (canonical : Canonical ⟨intervals⟩) : Canonical ⟨insertInto value intervals⟩ := by
  induction intervals with
  | nil => exact canonical_cons.2 ⟨by simp, by simp, canonical_nil⟩
  | cons i rest ih =>
    obtain ⟨filled, first, later⟩ := canonical_cons.1 canonical
    unfold IntDomain.insertInto
    split
    · refine canonical_cons.2 ⟨by simp, ?_, canonical⟩
      intro j member
      rcases List.mem_cons.1 member with rfl | member
      · assumption
      · have := first j member
        grind
    split
    · refine canonical_cons.2 ⟨?_, first, later⟩
      show value ≤ i.max
      omega
    split
    · exact canonical
    split
    · split
      · refine canonical_cons.2 ⟨?_, by simp, canonical_nil⟩
        show i.min ≤ value
        omega
      · have apart := first _ (List.mem_cons_self ..)
        obtain ⟨filled', first', later'⟩ := canonical_cons.1 later
        split
        · refine canonical_cons.2 ⟨?_, first', later'⟩
          grind
        · refine canonical_cons.2 ⟨?_, ?_, later⟩
          · show i.min ≤ value
            omega
          · intro j member
            show value + 1 < j.min
            rcases List.mem_cons.1 member with rfl | member
            · omega
            · have := first' j member
              omega
    · refine canonical_cons.2 ⟨filled, ?_, ih later⟩
      exact lt_of_mem_insertInto (by omega) first

theorem mem_insert {d : IntDomain} (canonical : d.Canonical) {value other : Int} :
    other ∈ d.insert value ↔ other = value ∨ other ∈ d :=
  mem_insertInto canonical other

theorem Canonical.insert {d : IntDomain} (canonical : d.Canonical) (value : Int) :
    (d.insert value).Canonical :=
  Canonical.insertInto canonical

theorem canonical_ofValues (values : List Int) : (ofValues values).Canonical := by
  induction values with
  | nil => exact canonical_nil
  | cons value rest ih => exact Canonical.insert ih value

theorem mem_ofValues {values : List Int} {value : Int} :
    value ∈ ofValues values ↔ value ∈ values := by
  induction values with
  | nil => simp [ofValues, empty]
  | cons first rest ih =>
    show value ∈ (ofValues rest).insert first ↔ _
    rw [mem_insert (canonical_ofValues rest), ih, List.mem_cons]

theorem mem_without {i : Interval} {value other : Int} :
    (∃ part ∈ i.without value, part.min ≤ other ∧ other ≤ part.max) ↔
      (i.min ≤ other ∧ other < value ∧ i.min < value) ∨
        (value < other ∧ other ≤ i.max ∧ value < i.max) := by
  unfold Interval.without
  split <;> split <;> simp <;> omega

theorem mem_removeFrom {value : Int} {intervals : List Interval}
    (canonical : Canonical ⟨intervals⟩) (other : Int) :
    other ∈ (⟨removeFrom value intervals⟩ : IntDomain) ↔
      other ≠ value ∧ other ∈ (⟨intervals⟩ : IntDomain) := by
  induction intervals with
  | nil => simp [removeFrom]
  | cons i rest ih =>
    have beyond : other ∈ (⟨rest⟩ : IntDomain) → i.max + 1 < other := canonical.lt_of_mem
    obtain ⟨filled, -, later⟩ := canonical_cons.1 canonical
    unfold removeFrom
    split
    · rename_i holds
      simp only [Interval.contains, Bool.and_eq_true, decide_eq_true_eq] at holds
      have split : other ∈ (⟨i.without value ++ rest⟩ : IntDomain) ↔
          (∃ part ∈ i.without value, part.min ≤ other ∧ other ≤ part.max) ∨
            other ∈ (⟨rest⟩ : IntDomain) := by
        simp only [mem_iff, List.mem_append]
        grind
      rw [split, mem_without, mem_cons]
      grind
    · rename_i misses
      simp only [Interval.contains, Bool.and_eq_true, decide_eq_true_eq] at misses
      rw [mem_cons, ih later, mem_cons]
      grind

theorem canonical_append {first later : List Interval} (left : Canonical ⟨first⟩)
    (right : Canonical ⟨later⟩)
    (apart : ∀ i ∈ first, ∀ j ∈ later, i.max + 1 < j.min) : Canonical ⟨first ++ later⟩ where
  nonempty i member := by
    rcases List.mem_append.1 member with member | member
    · exact left.nonempty i member
    · exact right.nonempty i member
  separated := List.pairwise_append.2 ⟨left.separated, right.separated, apart⟩

theorem canonical_without {i : Interval} {value : Int} : Canonical ⟨i.without value⟩ := by
  unfold Interval.without
  refine canonical_append ?_ ?_ ?_
  · split
    · refine canonical_cons.2 ⟨?_, by simp, canonical_nil⟩
      show i.min ≤ value - 1
      omega
    · exact canonical_nil
  · split
    · refine canonical_cons.2 ⟨?_, by simp, canonical_nil⟩
      show value + 1 ≤ i.max
      omega
    · exact canonical_nil
  · intro low first high second
    split at first <;> split at second <;> grind

/-- What remains of an interval lies within it. -/
theorem within_of_mem_without {i part : Interval} {value : Int} (holds : i.contains value = true)
    (member : part ∈ i.without value) : i.min ≤ part.min ∧ part.max ≤ i.max := by
  simp only [Interval.contains, Bool.and_eq_true, decide_eq_true_eq] at holds
  simp only [Interval.without, List.mem_append] at member
  rcases member with member | member <;> split at member <;> simp at member <;> grind

/-- A removal leaves no interval that begins before those that were there. -/
theorem lt_of_mem_removeFrom {bound value : Int} {intervals : List Interval}
    (separated : ∀ j ∈ intervals, bound < j.min) :
    ∀ j ∈ removeFrom value intervals, bound < j.min := by
  intro j member
  induction intervals with
  | nil => simp [removeFrom] at member
  | cons i rest ih =>
    have first : bound < i.min := separated i (by simp)
    unfold removeFrom at member
    split at member
    · rename_i holds
      rcases List.mem_append.1 member with member | member
      · have := (within_of_mem_without holds member).1
        omega
      · exact separated j (by simp [member])
    · rcases List.mem_cons.1 member with rfl | member
      · exact first
      · exact ih (fun j inside => separated j (by simp [inside])) member

theorem Canonical.removeFrom {value : Int} {intervals : List Interval}
    (canonical : Canonical ⟨intervals⟩) : Canonical ⟨removeFrom value intervals⟩ := by
  induction intervals with
  | nil => exact canonical_nil
  | cons i rest ih =>
    obtain ⟨filled, first, later⟩ := canonical_cons.1 canonical
    unfold IntDomain.removeFrom
    split
    · refine canonical_append canonical_without later ?_
      intro part member j inside
      have := first j inside
      have := (within_of_mem_without (by assumption) member).2
      omega
    · exact canonical_cons.2 ⟨filled, lt_of_mem_removeFrom first, ih later⟩

theorem mem_remove {d : IntDomain} (canonical : d.Canonical) {value other : Int} :
    other ∈ (d.remove value).1 ↔ other ≠ value ∧ other ∈ d :=
  mem_removeFrom canonical other

theorem Canonical.remove {d : IntDomain} (canonical : d.Canonical) (value : Int) :
    (d.remove value).1.Canonical :=
  Canonical.removeFrom canonical

theorem mem_restrict {d : IntDomain} {low high value : Int} :
    value ∈ (d.restrict low high).1 ↔ value ∈ d ∧ low ≤ value ∧ value ≤ high := by
  simp only [restrict, mem_iff, List.mem_filterMap, Interval.clip?]
  constructor
  · rintro ⟨part, ⟨i, member, clipped⟩, bounds⟩
    split at clipped
    · simp only [Option.some.injEq] at clipped
      subst clipped
      exact ⟨⟨i, member, by grind⟩, by grind⟩
    · cases clipped
  · rintro ⟨⟨i, member, bounds⟩, limits⟩
    refine ⟨⟨max i.min low, min i.max high⟩, ⟨i, member, if_pos (by omega)⟩, ?_⟩
    show max i.min low ≤ value ∧ value ≤ min i.max high
    omega

theorem Canonical.restrict {d : IntDomain} (canonical : d.Canonical) (low high : Int) :
    (d.restrict low high).1.Canonical where
  nonempty part member := by
    obtain ⟨i, -, clipped⟩ := List.mem_filterMap.1 member
    simp only [Interval.clip?] at clipped
    split at clipped
    · cases clipped
      assumption
    · cases clipped
  separated := by
    refine List.Pairwise.filterMap _ ?_ canonical.separated
    intro i j apart first clipped second clipped'
    simp only [Interval.clip?] at clipped clipped'
    split at clipped
    · split at clipped'
      · cases clipped
        cases clipped'
        show min i.max high + 1 < max j.min low
        omega
      · cases clipped'
    · cases clipped

end IntDomain

namespace Elements

/-- The elements are listed in ascending order, each once. -/
def Ascending (set : Elements) : Prop := set.Pairwise (· < ·)

theorem mem_insert {element other : Int} {set : Elements} :
    other ∈ insert element set ↔ other = element ∨ other ∈ set := by
  induction set with
  | nil => simp [insert]
  | cons e rest ih => grind [insert]

theorem Ascending.insert {set : Elements} (ascending : set.Ascending) (element : Int) :
    (insert element set).Ascending := by
  induction set with
  | nil => simp [Elements.insert, Ascending]
  | cons e rest ih =>
    obtain ⟨first, later⟩ := List.pairwise_cons.1 ascending
    unfold Elements.insert
    split
    · refine List.pairwise_cons.2 ⟨?_, ascending⟩
      grind
    split
    · exact ascending
    · refine List.pairwise_cons.2 ⟨?_, ih later⟩
      intro other member
      rcases mem_insert.1 member with rfl | member
      · omega
      · exact first other member

theorem ascending_ofList (elements : List Int) : (ofList elements).Ascending := by
  induction elements with
  | nil => exact .nil
  | cons element rest ih => exact Ascending.insert ih element

theorem mem_ofList {elements : List Int} {element : Int} :
    element ∈ ofList elements ↔ element ∈ elements := by
  induction elements with
  | nil => simp [ofList]
  | cons first rest ih =>
    show element ∈ insert first (ofList rest) ↔ _
    rw [mem_insert, ih, List.mem_cons]

theorem mem_remove {element other : Int} {set : Elements} :
    other ∈ remove element set ↔ other ∈ set ∧ other ≠ element := by
  simp [remove]

theorem Ascending.remove {set : Elements} (ascending : set.Ascending) (element : Int) :
    (remove element set).Ascending :=
  List.Pairwise.filter _ ascending

end Elements

namespace SetDomain

/-- Both bounds are listed in ascending order, and the lower one is contained in the upper
one. -/
structure Canonical (d : SetDomain) : Prop where
  lower : d.glb.Ascending
  upper : d.lub.Ascending
  nested : ∀ element ∈ d.glb, element ∈ d.lub

/-- A set lies in a domain when it is listed in ascending order between the bounds. -/
structure Admits (d : SetDomain) (set : Elements) : Prop where
  ascending : set.Ascending
  above : ∀ element ∈ d.glb, element ∈ set
  below : ∀ element ∈ set, element ∈ d.lub

theorem Canonical.ofBounds? {glb lub : List Int} {d : SetDomain}
    (formed : ofBounds? glb lub = some d) : d.Canonical := by
  unfold SetDomain.ofBounds? at formed
  simp only at formed
  split at formed
  · rename_i nested
    cases formed
    exact ⟨Elements.ascending_ofList glb, Elements.ascending_ofList lub, by simpa using nested⟩
  · cases formed

theorem Canonical.include? {d narrowed : SetDomain} {element : Int} {changed : Bool}
    (canonical : d.Canonical) (included : d.include? element = some (narrowed, changed)) :
    narrowed.Canonical := by
  unfold SetDomain.include? at included
  split at included
  · rename_i inside
    cases included
    refine ⟨canonical.lower.insert element, canonical.upper, ?_⟩
    intro other member
    rcases Elements.mem_insert.1 member with rfl | member
    · simpa using inside
    · exact canonical.nested other member
  · cases included

theorem Canonical.exclude? {d narrowed : SetDomain} {element : Int} {changed : Bool}
    (canonical : d.Canonical) (excluded : d.exclude? element = some (narrowed, changed)) :
    narrowed.Canonical := by
  unfold SetDomain.exclude? at excluded
  split at excluded
  · cases excluded
  · rename_i outside
    cases excluded
    refine ⟨canonical.lower, canonical.upper.remove element, ?_⟩
    intro other member
    refine Elements.mem_remove.2 ⟨canonical.nested other member, ?_⟩
    rintro rfl
    simp_all

end SetDomain

namespace Domain

def Canonical : Domain → Prop
  | .int d => d.Canonical
  | .set d => d.Canonical

end Domain

end StagedSearch
