/-
# Sample models

Small models to try a search on. Their bounds are in order and their constraints name
declared variables only, so nothing has to be checked while they are put together.
-/

import StagedSearch.Store.Basic

namespace StagedSearch

namespace Samples

/-- The helper variables of one column: its number, the number of its ascending diagonal
and that of its descending diagonal, tied to the row of its queen by sums. -/
def addDiagonals (size : Nat) (s : Store) (column : Nat) (queen : VarId) :
    (VarId × VarId) × Store :=
  let (position, s) := s.addInt s!"c{column}" column column
  let (up, s) := s.addInt s!"up{column}" (1 + column) (size + column)
  let s := s.addConstraint (.sumEquals [queen, position] up)
  let (down, s) := s.addInt s!"down{column}" (1 - column) (size - column)
  let s := s.addConstraint (.sumEquals [down, position] queen)
  ((up, down), s)

/-- The helper variables of several columns, which are numbered from `column` on. -/
def addAllDiagonals (size : Nat) (s : Store) (column : Nat) :
    List VarId → List (VarId × VarId) × Store
  | [] => ([], s)
  | queen :: queens =>
    let (diagonals, s) := addDiagonals size s column queen
    let (later, s) := addAllDiagonals size s (column + 1) queens
    (diagonals :: later, s)

/-- One variable per column, over the rows of the board. -/
def queenStore (size : Nat) : Store :=
  (List.range size).foldl (fun s i => (s.addInt s!"q{i + 1}" 1 size).2) Store.empty

def queenVariables (size : Nat) : List VarId := (List.range size).map VarId.mk

/-- Placing one queen per column so that no two attack each other. Rows, ascending and
descending diagonals are each all different. -/
def queens (size : Nat) : Store :=
  let columns := queenVariables size
  let (diagonals, s) := addAllDiagonals size (queenStore size) 1 columns
  let s := s.addConstraint (.allDifferent columns)
  let s := s.addConstraint (.allDifferent (diagonals.map Prod.fst))
  s.addConstraint (.allDifferent (diagonals.map Prod.snd))

def pair : Store :=
  let (_, s) := Store.empty.addInt "x" 1 2
  (s.addInt "y" 1 2).2

/-- Two terms over `0..3` and their total over `2..6`. -/
def sum : Store :=
  let (a, s) := Store.empty.addInt "a" 0 3
  let (b, s) := s.addInt "b" 0 3
  let (total, s) := s.addInt "total" 2 6
  s.addConstraint (.sumEquals [a, b] total)

def mixedKinds : Store :=
  let (_, s) := Store.empty.addInt "x" 1 3
  let (_, s) := s.declareBool "b"
  let (_, s) := s.declare "s" .set (.set ⟨[], [1, 2]⟩)
  (s.addInt "w" 0 1).2

/-- Three pairwise different variables over two values. -/
def triangle : Store :=
  let (u, s) := Store.empty.addInt "u" 1 2
  let (v, s) := s.addInt "v" 1 2
  let (w, s) := s.addInt "w" 1 2
  s.addConstraint (.allDifferent [u, v, w])

end Samples

end StagedSearch
