/-
# Totals

Sums over a list: of a size that each element has, and of integers. Both are plain
recursions, and the lemmas say how they go along with the list.
-/

namespace StagedSearch

def totalSize {α : Type} (size : α → Nat) : List α → Nat
  | [] => 0
  | a :: rest => size a + totalSize size rest

def sumOf : List Int → Int
  | [] => 0
  | a :: rest => a + sumOf rest

@[simp]
theorem totalSize_nil {α : Type} (size : α → Nat) : totalSize size [] = 0 := rfl

@[simp]
theorem totalSize_cons {α : Type} (size : α → Nat) (a : α) (rest : List α) :
    totalSize size (a :: rest) = size a + totalSize size rest := rfl

@[simp]
theorem totalSize_append {α : Type} (size : α → Nat) (first later : List α) :
    totalSize size (first ++ later) = totalSize size first + totalSize size later := by
  induction first with
  | nil => simp
  | cons a rest ih => simp [ih, Nat.add_assoc]

theorem totalSize_map {α β : Type} (size : β → Nat) (f : α → β) (list : List α) :
    totalSize size (list.map f) = totalSize (fun a => size (f a)) list := by
  induction list with
  | nil => rfl
  | cons a rest ih => rw [List.map_cons, totalSize_cons, totalSize_cons, ih]

/-- A total does not depend on the order. -/
theorem totalSize_perm {α : Type} (size : α → Nat) {list other : List α}
    (perm : list.Perm other) : totalSize size list = totalSize size other := by
  induction perm with
  | nil => rfl
  | cons a _ ih => rw [totalSize_cons, totalSize_cons, ih]
  | swap a b rest =>
    simp only [totalSize_cons]
    omega
  | trans _ _ first second => exact first.trans second

@[simp]
theorem sumOf_nil : sumOf [] = 0 := rfl

@[simp]
theorem sumOf_cons (a : Int) (rest : List Int) : sumOf (a :: rest) = a + sumOf rest := rfl

@[simp]
theorem sumOf_append (first later : List Int) :
    sumOf (first ++ later) = sumOf first + sumOf later := by
  induction first with
  | nil => simp
  | cons a rest ih => simp [ih, Int.add_assoc]

end StagedSearch
