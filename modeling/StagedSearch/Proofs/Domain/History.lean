/-
# Integer domains are sets of values

Whatever an integer domain is made from and however it is cut down, it represents the set that the
same operations make of sets (`represents_of_cutAll`): what it contains, its ends, whether it is
decided and how its values are listed are read off that set, a cut is reported as a change exactly
if the set changes, and two domains are equal exactly if their sets are.

Steps in the signed range come to the same domain. The neighbour of a value is computed only where
a further value lies beyond it, and that value is in the range.
-/

import Mathlib.Order.Bounds.Basic
import StagedSearch.Domain.History
import StagedSearch.Proofs.Domain.Order

namespace StagedSearch

namespace IntDomain

variable {d e : IntDomain} {members : Set Int}

/-! ## What a canonical domain says about its values -/

/-- The domain says of a set what there is to say. -/
structure Represents (d : IntDomain) (members : Set Int) : Prop where
  contains : ∀ value, d.contains value = true ↔ value ∈ members
  isEmpty : d.isEmpty = true ↔ members = ∅
  min : ∀ low, d.min? = some low ↔ IsLeast members low
  noMin : d.min? = none ↔ members = ∅
  max : ∀ high, d.max? = some high ↔ IsGreatest members high
  noMax : d.max? = none ↔ members = ∅
  value : ∀ value, d.value? = some value ↔ members = {value}
  isSingleton : d.isSingleton = true ↔ ∃ value, members = {value}
  values : ∀ value, value ∈ d.values ↔ value ∈ members
  ascending : d.values.Pairwise (· < ·)
  smallest : ∀ number, d.smallest number = d.values.take number
  largest : ∀ number, d.largest number = d.values.reverse.take number

theorem min?_eq_none_iff : d.min? = none ↔ d.isEmpty = true := by
  rw [isEmpty_iff]
  simp [min?]

theorem max?_eq_none_iff : d.max? = none ↔ d.isEmpty = true := by
  rw [isEmpty_iff]
  simp [max?]

theorem setOf_mem_eq_singleton_iff {value : Int} :
    {other | other ∈ d} = {value} ↔ ∀ other, other ∈ d ↔ other = value := by
  simp [Set.ext_iff]

/-- A canonical domain represents the set of its values. -/
theorem Canonical.represents (canonical : d.Canonical) (same : ∀ value, value ∈ d ↔ value ∈ members) :
    d.Represents members := by
  obtain rfl : {value | value ∈ d} = members := Set.ext same
  have empty : d.isEmpty = true ↔ {value | value ∈ d} = ∅ := by
    rw [← Set.not_nonempty_iff_eq_empty, ← Bool.not_eq_false, canonical.isEmpty_eq_false_iff]
    rfl
  exact {
    contains := fun value => Iff.rfl
    isEmpty := empty
    min := fun low => canonical.min?_eq_some_iff
    noMin := min?_eq_none_iff.trans empty
    max := fun high => canonical.max?_eq_some_iff
    noMax := max?_eq_none_iff.trans empty
    value := fun value => canonical.value?_eq_some_iff.trans setOf_mem_eq_singleton_iff.symm
    isSingleton := canonical.isSingleton_iff.trans
      (exists_congr fun value => setOf_mem_eq_singleton_iff.symm)
    values := fun value => mem_values
    ascending := canonical.pairwise_values
    smallest := d.smallest_eq_take
    largest := d.largest_eq_take }

/-- Domains that represent sets are equal exactly if the sets are. -/
theorem Canonical.eq_iff (left : d.Canonical) (right : e.Canonical) {other : Set Int}
    (first : ∀ value, value ∈ d ↔ value ∈ members) (second : ∀ value, value ∈ e ↔ value ∈ other) :
    d = e ↔ members = other := by
  constructor
  · rintro rfl
    exact Set.ext fun value => (first value).symm.trans (second value)
  · rintro rfl
    exact left.ext right fun value => (first value).trans (second value).symm

/-! ## Sets that are made and cut down in the same way -/

def Origin.set : Origin → Set Int
  | empty => ∅
  | interval min max => {value | min ≤ value ∧ value ≤ max}
  | ofValues values => {value | value ∈ values}

def Cut.onSet (members : Set Int) : Cut → Set Int
  | remove value => members \ {value}
  | restrict min max => members ∩ {value | min ≤ value ∧ value ≤ max}

def Cut.allOnSet (members : Set Int) : List Cut → Set Int
  | [] => members
  | cut :: rest => Cut.allOnSet (cut.onSet members) rest

theorem Origin.canonical_domain (origin : Origin) : origin.domain.Canonical := by
  cases origin with
  | empty => exact canonical_nil
  | interval min max => exact canonical_interval min max
  | ofValues values => exact canonical_ofValues values

theorem Origin.mem_domain (origin : Origin) (value : Int) :
    value ∈ origin.domain ↔ value ∈ origin.set := by
  cases origin with
  | empty => exact mem_nil
  | interval min max => exact mem_interval
  | ofValues values => exact mem_ofValues

theorem Origin.inRange_domain {origin : Origin} (inRange : origin.InRange) :
    origin.domain.InRange := by
  intro value inside
  cases origin with
  | empty => exact (mem_nil.1 inside).elim
  | interval min max =>
    obtain ⟨low, high⟩ := mem_interval.1 inside
    exact ⟨inRange.1.1.trans low, high.trans inRange.2.2⟩
  | ofValues values => exact inRange value (mem_ofValues.1 inside)

namespace Cut

theorem canonical_run (cut : Cut) (canonical : d.Canonical) : (cut.run d).1.Canonical := by
  cases cut with
  | remove value => exact canonical.remove value
  | restrict min max => exact canonical.restrict min max

theorem mem_run (cut : Cut) (canonical : d.Canonical) (same : ∀ value, value ∈ d ↔ value ∈ members)
    (value : Int) : value ∈ (cut.run d).1 ↔ value ∈ cut.onSet members := by
  cases cut with
  | remove removed =>
    show value ∈ (d.remove removed).1 ↔ value ∈ members ∧ value ≠ removed
    rw [mem_remove canonical, same, and_comm]
  | restrict min max =>
    show value ∈ (d.restrict min max).1 ↔ value ∈ members ∧ min ≤ value ∧ value ≤ max
    rw [mem_restrict, same]

theorem inRange_run (cut : Cut) (canonical : d.Canonical) (inRange : d.InRange) :
    (cut.run d).1.InRange := by
  intro value inside
  cases cut with
  | remove removed => exact inRange value ((mem_remove canonical).1 inside).2
  | restrict min max => exact inRange value (mem_restrict.1 inside).1

/-- A cut is reported as a change exactly if the domain is another one afterwards. -/
theorem run_snd (cut : Cut) (canonical : d.Canonical) :
    (cut.run d).2 = true ↔ (cut.run d).1 ≠ d := by
  cases cut with
  | remove value =>
    show value ∈ d ↔ (d.remove value).1 ≠ d
    constructor
    · intro inside same
      exact ((mem_remove canonical).1 (same.symm ▸ inside)).1 rfl
    · intro different
      by_contra outside
      refine different ((canonical.remove value).ext canonical fun other => ?_)
      rw [mem_remove canonical, and_iff_right_iff_imp]
      rintro inside rfl
      exact outside inside
  | restrict min max =>
    show ((d.restrict min max).1 != d) = true ↔ (d.restrict min max).1 ≠ d
    exact bne_iff_ne

end Cut

/-! ## Steps in the signed range -/

/-- The ends of the intervals are values. -/
theorem Canonical.inRange_ends (canonical : d.Canonical) (inRange : d.InRange) :
    ∀ i ∈ d.intervals, Signed64.InRange i.min ∧ Signed64.InRange i.max := by
  intro i member
  have filled := canonical.nonempty i member
  exact ⟨inRange _ (mem_iff.2 ⟨i, member, le_rfl, filled⟩),
    inRange _ (mem_iff.2 ⟨i, member, filled, le_rfl⟩)⟩

theorem checked_of_between (value : Int) {low high : Int} (least : Signed64.InRange low)
    (greatest : Signed64.InRange high) (above : low ≤ value) (below : value ≤ high) :
    Signed64.checked value = some value :=
  Signed64.checked_eq_some_iff.2 ⟨⟨least.1.trans above, below.trans greatest.2⟩, rfl⟩

/-- A neighbour of a removed value is computed only between the ends of its interval. -/
theorem without?_eq_some {i : Interval} {value : Int} (holds : i.contains value = true)
    (least : Signed64.InRange i.min) (greatest : Signed64.InRange i.max) :
    i.without? value = some (i.without value) := by
  simp only [Interval.contains, Bool.and_eq_true, decide_eq_true_eq] at holds
  obtain ⟨above, below⟩ := holds
  unfold Interval.without? Interval.without
  by_cases first : i.min = value
  · by_cases last : i.max = value
    · simp [first, last]
    · have next : value < i.max := by omega
      rw [if_pos first, if_neg last,
        checked_of_between (value + 1) least greatest (by omega) (by omega)]
      simp [first, next]
  · have previous : i.min < value := by omega
    rw [if_neg first,
      checked_of_between (value - 1) least greatest (by omega) (by omega)]
    by_cases last : i.max = value
    · simp [last, previous]
    · have next : value < i.max := by omega
      rw [checked_of_between (value + 1) least greatest (by omega) (by omega)]
      simp [last, previous, next]

theorem removeFrom?_eq_some {intervals : List Interval} {value : Int}
    (ends : ∀ i ∈ intervals, Signed64.InRange i.min ∧ Signed64.InRange i.max) :
    removeFrom? value intervals = some (removeFrom value intervals) := by
  induction intervals with
  | nil => rfl
  | cons i rest ih =>
    obtain ⟨first, later⟩ := List.forall_mem_cons.1 ends
    unfold removeFrom? removeFrom
    split
    · rename_i holds
      rw [without?_eq_some holds first.1 first.2]
      rfl
    · rw [ih later]
      rfl

theorem Cut.run?_eq_some (cut : Cut) (canonical : d.Canonical) (inRange : d.InRange) :
    cut.run? d = some (cut.run d) := by
  cases cut with
  | remove value =>
    show d.remove? value = some (d.remove value)
    rw [remove?, removeFrom?_eq_some (canonical.inRange_ends inRange)]
    rfl
  | restrict min max => rfl

/-- Ascending values behind an interval are joined to intervals that hold its values and theirs.
The value behind the interval is in the range, because it is at most the next of them. -/
theorem exists_joinRuns? (last : Interval) {values : List Int} (filled : last.min ≤ last.max)
    (inside : Signed64.least ≤ last.max) (ascending : Elements.Ascending values)
    (beyond : ∀ value ∈ values, last.max < value)
    (inRange : ∀ value ∈ values, Signed64.InRange value) :
    ∃ i rest, joinRuns? last values = some (i :: rest) ∧ i.min = last.min ∧
      Canonical ⟨i :: rest⟩ ∧ ∀ value, value ∈ (⟨i :: rest⟩ : IntDomain) ↔
        (last.min ≤ value ∧ value ≤ last.max) ∨ value ∈ values := by
  induction values generalizing last with
  | nil =>
    exact ⟨last, [], rfl, rfl, canonical_cons.2 ⟨filled, by simp, canonical_nil⟩, by simp⟩
  | cons value rest ih =>
    obtain ⟨next, later⟩ := List.pairwise_cons.1 ascending
    obtain ⟨behind, -⟩ := List.forall_mem_cons.1 beyond
    obtain ⟨own, others⟩ := List.forall_mem_cons.1 inRange
    have reach : Signed64.checked (last.max + 1) = some (last.max + 1) :=
      Signed64.checked_eq_some_iff.2 ⟨⟨by omega, by have := own.2; omega⟩, rfl⟩
    rw [joinRuns?, reach, Option.bind_eq_bind, Option.bind_some]
    by_cases touches : last.max + 1 = value
    · rw [if_pos touches]
      obtain ⟨i, tail, joined, starts, canonical, holds⟩ :=
        ih ⟨last.min, value⟩ (show last.min ≤ value by omega) own.1 later next others
      refine ⟨i, tail, joined, starts, canonical, fun other => ?_⟩
      rw [holds, List.mem_cons]
      show (last.min ≤ other ∧ other ≤ value) ∨ _ ↔ _
      grind
    · rw [if_neg touches]
      obtain ⟨i, tail, joined, starts, canonical, holds⟩ :=
        ih ⟨value, value⟩ (le_refl value) own.1 later next others
      refine ⟨last, i :: tail, by rw [joined]; rfl, rfl, canonical_cons.2 ⟨filled, ?_, canonical⟩,
        fun other => ?_⟩
      · have start : last.max + 1 < i.min := by
          rw [starts]
          show last.max + 1 < value
          omega
        refine List.forall_mem_cons.2 ⟨start, fun j member => ?_⟩
        obtain ⟨filled', first, -⟩ := canonical_cons.1 canonical
        have := first j member
        omega
      · rw [mem_cons, holds, List.mem_cons]
        show _ ∨ (value ≤ other ∧ other ≤ value) ∨ _ ↔ _
        grind

/-- Values that are joined from the least one on make the same domain as values that are inserted
one by one. -/
theorem ofValues?_eq_some {values : List Int}
    (inRange : ∀ value ∈ values, Signed64.InRange value) :
    ofValues? values = some (ofValues values) := by
  have ascending := Elements.ascending_ofList values
  have listed (value : Int) : value ∈ Elements.ofList values ↔ value ∈ values :=
    Elements.mem_ofList
  suffices joins : ∃ intervals, runs? (Elements.ofList values) = some intervals ∧
      Canonical ⟨intervals⟩ ∧
      ∀ value, value ∈ (⟨intervals⟩ : IntDomain) ↔ value ∈ Elements.ofList values by
    obtain ⟨intervals, joined, canonical, holds⟩ := joins
    have equal : ofValues values = ⟨intervals⟩ := by
      refine (canonical_ofValues values).ext canonical fun value => ?_
      rw [mem_ofValues, holds, listed]
    rw [ofValues?, joined, equal]
    rfl
  have bounded : ∀ value ∈ Elements.ofList values, Signed64.InRange value :=
    fun value member => inRange value ((listed value).1 member)
  cases ordered : Elements.ofList values with
  | nil => exact ⟨[], rfl, canonical_nil, by simp⟩
  | cons value rest =>
    rw [ordered] at ascending bounded
    obtain ⟨next, later⟩ := List.pairwise_cons.1 ascending
    obtain ⟨own, others⟩ := List.forall_mem_cons.1 bounded
    obtain ⟨i, tail, joined, -, canonical, holds⟩ :=
      exists_joinRuns? ⟨value, value⟩ (le_refl value) own.1 later next others
    refine ⟨i :: tail, joined, canonical, fun other => ?_⟩
    rw [holds, List.mem_cons]
    show (value ≤ other ∧ other ≤ value) ∨ _ ↔ _
    rw [← le_antisymm_iff, eq_comm]

theorem Origin.domain?_eq_some {origin : Origin} (inRange : origin.InRange) :
    origin.domain? = some origin.domain := by
  cases origin with
  | empty => rfl
  | interval min max => rfl
  | ofValues values => exact ofValues?_eq_some inRange

/-! ## Whole histories -/

theorem Canonical.cutAll (canonical : d.Canonical) (cuts : List Cut) :
    (d.cutAll cuts).Canonical := by
  induction cuts generalizing d with
  | nil => exact canonical
  | cons cut rest ih => exact ih (cut.canonical_run canonical)

theorem mem_cutAll (canonical : d.Canonical) (same : ∀ value, value ∈ d ↔ value ∈ members)
    (cuts : List Cut) (value : Int) : value ∈ d.cutAll cuts ↔ value ∈ Cut.allOnSet members cuts := by
  induction cuts generalizing d members with
  | nil => exact same value
  | cons cut rest ih => exact ih (cut.canonical_run canonical) (cut.mem_run canonical same)

theorem cutAll?_eq_some (canonical : d.Canonical) (inRange : d.InRange) (cuts : List Cut) :
    d.cutAll? cuts = some (d.cutAll cuts) := by
  induction cuts generalizing d with
  | nil => rfl
  | cons cut rest ih =>
    rw [cutAll?, cut.run?_eq_some canonical inRange]
    exact ih (cut.canonical_run canonical) (cut.inRange_run canonical inRange)

/-- Whatever a domain is made from and however it is cut down, it represents the set that the same
operations make, one more cut is reported as a change exactly if it changes that set, steps in the
signed range come to the same domain, and any other domain is equal to it exactly if it has the
same set. -/
theorem represents_of_cutAll (origin : Origin) (cuts : List Cut) (inRange : origin.InRange) :
    (origin.domain.cutAll cuts).Represents (Cut.allOnSet origin.set cuts) ∧
      (∀ cut : Cut, (cut.run (origin.domain.cutAll cuts)).2 = true ↔
        cut.onSet (Cut.allOnSet origin.set cuts) ≠ Cut.allOnSet origin.set cuts) ∧
      (origin.domain?.bind fun d => d.cutAll? cuts) = some (origin.domain.cutAll cuts) ∧
      ∀ (other : Origin) (others : List Cut),
        origin.domain.cutAll cuts = other.domain.cutAll others ↔
          Cut.allOnSet origin.set cuts = Cut.allOnSet other.set others := by
  have made := origin.canonical_domain
  have canonical := made.cutAll cuts
  have same := mem_cutAll made origin.mem_domain cuts
  refine ⟨canonical.represents same, fun cut => ?_, ?_, fun other others => ?_⟩
  · rw [cut.run_snd canonical, ne_eq, ne_eq,
      (cut.canonical_run canonical).eq_iff canonical (cut.mem_run canonical same) same]
  · rw [Origin.domain?_eq_some inRange]
    exact cutAll?_eq_some made (Origin.inRange_domain inRange) cuts
  · exact canonical.eq_iff (other.canonical_domain.cutAll others) same
      (mem_cutAll other.canonical_domain other.mem_domain others)

/-- Values at both ends of the range, of which the greatest is removed and the least is cut off:
the others are one interval. -/
theorem represents_of_cutAll_ends :
    let origin := Origin.ofValues [Signed64.greatest, 3, Signed64.least, 2, Signed64.greatest]
    let cuts := [Cut.remove Signed64.greatest, .restrict (-1) Signed64.greatest]
    origin.InRange ∧ (origin.domain.cutAll cuts).Represents (Cut.allOnSet origin.set cuts) ∧
      (origin.domain?.bind fun d => d.cutAll? cuts) = some (interval 2 3) := by
  intro origin cuts
  have inRange : origin.InRange := by
    show ∀ value ∈ [Signed64.greatest, 3, Signed64.least, 2, Signed64.greatest],
      Signed64.InRange value
    decide
  obtain ⟨represents, -, steps, -⟩ := represents_of_cutAll origin cuts inRange
  have left : origin.domain.cutAll cuts = interval 2 3 := by decide
  exact ⟨inRange, represents, steps.trans (congrArg some left)⟩

end IntDomain

end StagedSearch
