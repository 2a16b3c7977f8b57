/-
# The middle value

The middle value of an integer domain is found from its intervals: each of them offers the value
that is nearest to the midpoint of the bounds, which is the midpoint itself, moved between the
interval's ends, and the best offer wins. The order that tries values from the middle outwards
sorts all of them instead. Both find the same value, since an interval's offer is its best value,
and no two values are equally good: of two at the same distance the lower one is preferred.

What is computed on the way does not overflow. The midpoint and the offers lie between values of
the domain, and the distance between two signed values is a number of 64 bits.
-/

import Mathlib.Order.Bounds.Basic
import StagedSearch.Proofs.Branching.Splitting

namespace StagedSearch

namespace IntDomain

/-- What is measured against a midpoint stays in its range: the midpoint, what is offered between
the ends of an interval, and distances. -/
structure Measures (d : IntDomain) (target : Int) : Prop where
  inRange : Signed64.InRange target
  ordered : ∀ i ∈ d.intervals, i.min ≤ i.max
  offers : ∀ i ∈ d.intervals, Signed64.InRange (i.nearest target)
  distances : ∀ value, Signed64.InRange value → (value - target).natAbs ≤ Unsigned64.greatest

/-- A value is the middle of a domain with some bounds: it is found from the intervals, it precedes
all other values, and the order from the middle outwards yields it first. -/
structure Middle (d : IntDomain) (low high value : Int) : Prop where
  found : d.middle? = some value
  mem : value ∈ d
  precedes : ∀ other ∈ d, other ≠ value →
    ValueOrder.Precedes ((low + high).fdiv 2) value other
  measures : d.Measures ((low + high).fdiv 2)
  first : ∀ (s : Store) (var : VarId), s.domains.get? var = some (.int d) →
    ∃ rest, (ValueOrder.middleOut.candidates s var).1.candidates.next? =
      some (.assign var value, rest)

variable {d : IntDomain} {i : Interval} {target low high value other : Int}

theorem nearer_refl (target value : Int) : nearer target value value = true :=
  ValueOrder.nearer_iff.2 (.inr rfl)

/-- Values that are as good as each other are the same. -/
theorem nearer_antisymm {first second : Int} (left : nearer target first second = true)
    (right : nearer target second first = true) : first = second := by
  rw [ValueOrder.nearer_iff] at *
  unfold ValueOrder.Precedes at *
  omega

/-- The best of the offers is one of them, and none is better. -/
theorem foldl_nearer (target offer : Int) (offers : List Int) :
    ∃ best ∈ offer :: offers,
      offers.foldl (fun best v => if nearer target best v then best else v) offer = best ∧
        ∀ other ∈ offer :: offers, nearer target best other = true := by
  induction offers generalizing offer with
  | nil => exact ⟨offer, List.mem_singleton.2 rfl, rfl, by simp [nearer_refl]⟩
  | cons next offers ih =>
    rw [List.foldl_cons]
    by_cases keeps : nearer target offer next = true
    · rw [if_pos keeps]
      obtain ⟨best, member, folded, none⟩ := ih offer
      obtain ⟨own, later⟩ := List.forall_mem_cons.1 none
      have behind : nearer target best next = true := ValueOrder.nearer_trans own keeps
      refine ⟨best, ?_, folded, ?_⟩
      · rcases List.mem_cons.1 member with rfl | inside
        · exact List.mem_cons_self ..
        · exact List.mem_cons_of_mem _ (List.mem_cons_of_mem _ inside)
      · exact List.forall_mem_cons.2 ⟨own, List.forall_mem_cons.2 ⟨behind, later⟩⟩
    · rw [if_neg keeps]
      obtain ⟨best, member, folded, none⟩ := ih next
      have own : nearer target best offer = true :=
        ValueOrder.nearer_trans (none next (List.mem_cons_self ..))
          ((ValueOrder.nearer_total target offer next).resolve_left keeps)
      exact ⟨best, List.mem_cons_of_mem _ member, folded, List.forall_mem_cons.2 ⟨own, none⟩⟩

/-! ## The offer of an interval -/

theorem Interval.le_nearest (ordered : i.min ≤ i.max) :
    i.min ≤ i.nearest target ∧ i.nearest target ≤ i.max := by
  unfold Interval.nearest
  omega

/-- An interval offers its best value. -/
theorem Interval.nearer_nearest (above : i.min ≤ value) (below : value ≤ i.max) :
    nearer target (i.nearest target) value = true := by
  rw [ValueOrder.nearer_iff]
  unfold ValueOrder.Precedes Interval.nearest
  omega

theorem Canonical.nearest_mem (canonical : d.Canonical) (member : i ∈ d.intervals) :
    i.nearest target ∈ d :=
  mem_iff.2 ⟨i, member, Interval.le_nearest (canonical.nonempty i member)⟩

/-- The best offer is the best value. -/
theorem Canonical.exists_middle? (canonical : d.Canonical) (least : d.min? = some low)
    (greatest : d.max? = some high) :
    ∃ value ∈ d, d.middle? = some value ∧
      ∀ other ∈ d, nearer (Signed64.midpoint low high) value other = true := by
  have filled : d.intervals ≠ [] := by
    intro none
    rw [min?, none] at least
    cases least
  obtain ⟨i, rest, parts⟩ := List.exists_cons_of_ne_nil filled
  obtain ⟨value, offered, folded, best⟩ := foldl_nearer (Signed64.midpoint low high)
    (i.nearest (Signed64.midpoint low high)) (rest.map (·.nearest (Signed64.midpoint low high)))
  rw [← List.map_cons (f := (Interval.nearest · (Signed64.midpoint low high))), ← parts]
    at offered best
  obtain ⟨j, member, rfl⟩ := List.mem_map.1 offered
  refine ⟨j.nearest (Signed64.midpoint low high), canonical.nearest_mem member, ?_, ?_⟩
  · rw [← folded]
    unfold middle?
    rw [least, greatest, parts]
    rfl
  · intro other inside
    obtain ⟨k, member', above, below⟩ := mem_iff.1 inside
    exact ValueOrder.nearer_trans (best _ (List.mem_map_of_mem member'))
      (Interval.nearer_nearest above below)

/-- The order from the middle outwards yields the best value first. -/
theorem Canonical.exists_next?_middleOut (canonical : d.Canonical) (least : d.min? = some low)
    (greatest : d.max? = some high) (mem : value ∈ d)
    (best : ∀ other ∈ d, nearer (Signed64.midpoint low high) value other = true) {s : Store}
    {var : VarId} (here : s.domains.get? var = some (.int d)) :
    ∃ rest, (ValueOrder.middleOut.candidates s var).1.candidates.next? =
      some (.assign var value, rest) := by
  let target := Signed64.midpoint low high
  have listed : (ValueOrder.middleOut.candidates s var).1.candidates.toList =
      (ValueOrder.sortByDistance target d.values).map (.assign var) := by
    simp only [ValueOrder.candidates, here, least, greatest]
    rfl
  have perm : (ValueOrder.sortByDistance target d.values).Perm d.values :=
    List.mergeSort_perm d.values _
  have sorted : (ValueOrder.sortByDistance target d.values).Pairwise (ValueOrder.Precedes target) :=
    ValueOrder.pairwise_sortByDistance canonical.nodup_values
  cases values : ValueOrder.sortByDistance target d.values with
  | nil =>
    rw [values] at perm
    have inside := perm.mem_iff.2 (mem_values.2 mem)
    cases inside
  | cons head tail =>
    rw [values] at perm sorted listed
    have held : head ∈ d := mem_values.1 (perm.mem_iff.1 (List.mem_cons_self ..))
    have beats : nearer target head value = true := by
      rw [ValueOrder.nearer_iff]
      rcases List.mem_cons.1 (perm.mem_iff.2 (mem_values.2 mem)) with same | later
      · exact .inr same.symm
      · exact .inl ((List.pairwise_cons.1 sorted).1 value later)
    obtain rfl : head = value := nearer_antisymm beats (best head held)
    obtain ⟨rest, next, -⟩ := Candidates.next?_of_toList_cons listed
    exact ⟨rest, next⟩

/-! ## Ranges -/

theorem Canonical.measures (canonical : d.Canonical) (inRange : d.InRange)
    (least : d.min? = some low) (greatest : d.max? = some high) :
    d.Measures (Signed64.midpoint low high) where
  inRange := by
    have lower := inRange low (canonical.min?_eq_some_iff.1 least).1
    have upper := inRange high (canonical.max?_eq_some_iff.1 greatest).1
    unfold Signed64.InRange Signed64.midpoint at *
    omega
  ordered := canonical.nonempty
  offers i member := inRange _ (canonical.nearest_mem member)
  distances := by
    have lower := inRange low (canonical.min?_eq_some_iff.1 least).1
    have upper := inRange high (canonical.max?_eq_some_iff.1 greatest).1
    intro value inside
    simp only [Signed64.InRange, Signed64.midpoint, Signed64.least, Signed64.greatest,
      Unsigned64.greatest] at *
    omega

/-- Every domain that has values has a middle, which is the first candidate from the middle
outwards. -/
theorem exists_middle_of_hasValue (canonical : d.Canonical) (inRange : d.InRange)
    (filled : d.HasValue) :
    ∃ low high value, IsLeast {value | value ∈ d} low ∧ IsGreatest {value | value ∈ d} high ∧
      d.Middle low high value := by
  obtain ⟨low, high, least, greatest⟩ := canonical.exists_bounds filled
  obtain ⟨value, mem, found, best⟩ := canonical.exists_middle? least greatest
  refine ⟨low, high, value, canonical.min?_eq_some_iff.1 least,
    canonical.max?_eq_some_iff.1 greatest, found, mem, ?_, ?_, ?_⟩
  · intro other inside different
    rw [← Signed64.midpoint_eq_fdiv]
    exact (ValueOrder.nearer_iff.1 (best other inside)).resolve_right different.symm
  · rw [← Signed64.midpoint_eq_fdiv]
    exact canonical.measures inRange least greatest
  · intro s var here
    exact canonical.exists_next?_middleOut least greatest mem best here

/-- The midpoint of negative bounds is rounded down. -/
theorem exists_middle_of_hasValue_negative :
    let s := StoreOperation.applyAll .empty [.declareInt "x" (-4) (-1)]
    (∃ low high, (interval (-4) (-1)).Middle low high (-3)) ∧
      ∃ rest, (ValueOrder.middleOut.candidates s ⟨0⟩).1.candidates.next? =
        some (.assign ⟨0⟩ (-3), rest) := by
  intro s
  have inRange : (interval (-4) (-1)).InRange := by
    intro value inside
    have bounds := mem_interval.1 inside
    unfold Signed64.InRange Signed64.least Signed64.greatest
    omega
  obtain ⟨low, high, value, -, -, middle⟩ :=
    exists_middle_of_hasValue (canonical_interval _ _) inRange ⟨-1, by decide⟩
  obtain rfl : value = -3 := Option.some.inj (middle.found.symm.trans (by decide))
  exact ⟨⟨low, high, middle⟩, middle.first s ⟨0⟩ (by decide)⟩

/-- Of two values at the same distance the lower one is preferred. -/
example : (ofValues [Signed64.least, -11, 9, Signed64.greatest]).middle? = some (-11) := by decide

end IntDomain

end StagedSearch
