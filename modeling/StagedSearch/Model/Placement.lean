/-
# Placements of queens

What the queens model is about, said without variables and constraints: the rows of queens
that stand one to a column. Columns are counted from the left, and how they are numbered
does not matter, because only distances between them count.
-/

import StagedSearch.Number.Bounded

namespace StagedSearch

namespace Samples

/-- Two queens that stand `distance` columns apart do not attack each other: their rows
differ, and by another distance than their columns. -/
def Peaceful (first second : Int) (distance : Nat) : Prop :=
  first ≠ second ∧ (first - second).natAbs ≠ distance

/-- No queen attacks one to its right. -/
def PeacefulRight (queen : Int) (right : List Int) : Prop :=
  ∀ distance row, right[distance]? = some row → Peaceful queen row (distance + 1)

/-- The rows of queens, column by column, of which no two attack each other. -/
def NonAttacking : List Int → Prop
  | [] => True
  | queen :: right => PeacefulRight queen right ∧ NonAttacking right

/-- A solution of the puzzle: as many queens as columns, on the rows of the board, and no two
of them attack each other. -/
structure Placement (size : Nat) (rows : List Int) : Prop where
  full : rows.length = size
  onBoard : ∀ row ∈ rows, 1 ≤ row ∧ row ≤ size
  nonAttacking : NonAttacking rows

end Samples

end StagedSearch
