/-
# Listing the values of a domain

The values of a domain can be listed from either end. Whatever number of values is asked for, a
list of the least or of the greatest ones is the beginning of the list of all values or of its
reverse, although only so many values are made (`smallest_eq_take`, `largest_eq_take`).
-/

import StagedSearch.Domain.IntDomain

namespace StagedSearch

namespace Interval

theorem values_eq_map (i : Interval) :
    i.values = (List.range i.count).map fun (offset : Nat) => i.min + offset := by
  unfold values smallest
  rw [show Nat.min i.count i.count = i.count from Nat.min_self _]

theorem largest_eq_map (i : Interval) :
    i.largest i.count = (List.range i.count).map fun (offset : Nat) => i.max - offset := by
  unfold largest
  rw [show Nat.min i.count i.count = i.count from Nat.min_self _]

theorem values_eq_cons {i : Interval} (open_ : i.min < i.max) :
    i.values = i.min :: (⟨i.min + 1, i.max⟩ : Interval).values := by
  have count : i.count = (⟨i.min + 1, i.max⟩ : Interval).count + 1 := by
    simp only [Interval.count]
    omega
  rw [values_eq_map, values_eq_map, count, List.range_succ_eq_map]
  simp only [List.map_cons, List.map_map, List.cons.injEq]
  refine ⟨by simp, List.map_congr_left fun offset _ => ?_⟩
  simp only [Function.comp_apply]
  omega

theorem values_eq_concat {i : Interval} (open_ : i.min < i.max) :
    i.values = (⟨i.min, i.max - 1⟩ : Interval).values ++ [i.max] := by
  have count : i.count = (⟨i.min, i.max - 1⟩ : Interval).count + 1 := by
    simp only [Interval.count]
    omega
  have last : i.min + ((⟨i.min, i.max - 1⟩ : Interval).count : Int) = i.max := by
    simp only [Interval.count]
    omega
  rw [values_eq_map, values_eq_map, count, List.range_succ]
  simp only [List.map_append, List.map_cons, List.map_nil, last]

theorem values_of_eq {i : Interval} (single : i.min = i.max) : i.values = [i.min] := by
  have count : i.count = 1 := by
    simp only [Interval.count]
    omega
  simp [values_eq_map, count]

theorem values_of_lt {i : Interval} (reversed : i.max < i.min) : i.values = [] := by
  have count : i.count = 0 := by
    simp only [Interval.count]
    omega
  simp [values_eq_map, count]

/-- All values, descending. -/
theorem largest_count (i : Interval) : i.largest i.count = i.values.reverse := by
  rw [largest_eq_map, values_eq_map]
  refine List.ext_getElem (by simp) fun n here there => ?_
  simp only [List.length_map, List.length_range] at here
  have count : (i.count : Int) = i.max - i.min + 1 := by
    simp only [Interval.count] at *
    omega
  simp only [List.getElem_reverse, List.getElem_map, List.getElem_range, List.length_map,
    List.length_range]
  omega

theorem length_values (i : Interval) : i.values.length = i.count := by
  rw [values_eq_map, List.length_map, List.length_range]

theorem smallest_eq_take (i : Interval) (number : Nat) :
    i.smallest number = i.values.take number := by
  rw [values_eq_map, ← List.map_take, List.take_range]
  rfl

theorem largest_eq_take (i : Interval) (number : Nat) :
    i.largest number = i.values.reverse.take number := by
  rw [← largest_count, largest_eq_map, ← List.map_take, List.take_range]
  rfl

end Interval

namespace IntDomain

theorem smallestOf_eq_take (intervals : List Interval) (number : Nat) :
    smallestOf intervals number = (intervals.flatMap Interval.values).take number := by
  induction intervals generalizing number with
  | nil => simp [smallestOf]
  | cons i rest ih =>
    rw [smallestOf, ih, i.smallest_eq_take, List.flatMap_cons, List.take_append,
      i.length_values]

theorem largestOf_eq_take (intervals : List Interval) (number : Nat) :
    largestOf intervals number =
      (intervals.flatMap fun i => i.values.reverse).take number := by
  induction intervals generalizing number with
  | nil => simp [largestOf]
  | cons i rest ih =>
    rw [largestOf, ih, i.largest_eq_take, List.flatMap_cons, List.take_append,
      List.length_reverse, i.length_values]

/-- The least values are the first ones of the list. -/
theorem smallest_eq_take (d : IntDomain) (number : Nat) :
    d.smallest number = d.values.take number :=
  smallestOf_eq_take d.intervals number

/-- The greatest values are the first ones of the reverse of the list. -/
theorem largest_eq_take (d : IntDomain) (number : Nat) :
    d.largest number = d.values.reverse.take number := by
  rw [largest, largestOf_eq_take, values, List.reverse_flatMap]
  rfl

end IntDomain

end StagedSearch
