/-
# What the queens model says

The model has four variables for each column: the row of its queen, the number of the column,
and the numbers of the two diagonals through the queen. Each of them ranges over the numbers
that it can have, and two sums tie the diagonals to the row. So an assignment that satisfies
the model is determined by the rows, and the three demands to be all different say that no two
queens attack each other: the satisfying assignments are the placements of queens.

Columns are counted from zero here. On the board they are numbered from one.
-/

import StagedSearch.Model.Placement
import StagedSearch.Model.Samples
import StagedSearch.Proofs.Store.Extension
import StagedSearch.Proofs.Store.Values

namespace StagedSearch

namespace Samples

/-! ## The parts of a column -/

/-- What a variable of the model stands for in its column. -/
inductive Part where
  | queen
  | position
  | ascending
  | descending
deriving DecidableEq

namespace Part

/-- The variable of a part. The queens come first, and then the helpers of one column after
the other. -/
def var (size column : Nat) : Part → VarId
  | queen => ⟨column⟩
  | position => ⟨size + 3 * column⟩
  | ascending => ⟨size + 3 * column + 1⟩
  | descending => ⟨size + 3 * column + 2⟩

/-- The number of a part when the queen of the column stands on a row. -/
def value (part : Part) (column : Nat) (row : Int) : Int :=
  match part with
  | queen => row
  | position => column + 1
  | ascending => row + (column + 1)
  | descending => row - (column + 1)

/-- The column and the part that a variable stands for. -/
def place (size : Nat) (var : VarId) : Nat × Part :=
  if var.index < size then (var.index, queen)
  else
    ((var.index - size) / 3,
      match (var.index - size) % 3 with
      | 0 => position
      | 1 => ascending
      | _ => descending)

/-- The numbers that a part can have while its queen is on the board. -/
def range (size : Nat) (part : Part) (column : Nat) : IntDomain :=
  IntDomain.interval (part.value column 1) (part.value column size)

variable {size column : Nat} {part : Part} {var : VarId} {row : Int}

theorem place_var (inside : column < size) :
    place size (part.var size column) = (column, part) := by
  have helpers (offset : Nat) (small : offset < 3) :
      ¬ size + 3 * column + offset < size ∧ (size + 3 * column + offset - size) / 3 = column ∧
        (size + 3 * column + offset - size) % 3 = offset := by omega
  cases part with
  | queen => simp [place, Part.var, inside]
  | position => simp [place, Part.var]
  | ascending => simp [place, Part.var, helpers 1 (by omega)]
  | descending => simp [place, Part.var, helpers 2 (by omega)]

theorem index_var_lt (inside : column < size) : (part.var size column).index < 4 * size := by
  cases part <;> simp only [Part.var] <;> omega

/-- Every variable is the one of a part of a column. -/
theorem exists_var (inside : var.index < 4 * size) :
    ∃ (part : Part) (column : Nat), column < size ∧ part.var size column = var := by
  obtain ⟨index⟩ := var
  rcases Nat.lt_or_ge index size with isQueen | isHelper
  · exact ⟨queen, index, isQueen, rfl⟩
  · have bound : index < 4 * size := inside
    have within : (index - size) / 3 < size := by omega
    obtain rest | rest | rest :
        (index - size) % 3 = 0 ∨ (index - size) % 3 = 1 ∨ (index - size) % 3 = 2 := by omega
    · exact ⟨position, _, within, congrArg VarId.mk (by omega)⟩
    · exact ⟨ascending, _, within, congrArg VarId.mk (by omega)⟩
    · exact ⟨descending, _, within, congrArg VarId.mk (by omega)⟩

/-- Elsewhere there is no column. -/
theorem le_place (outside : 4 * size ≤ var.index) : size ≤ (place size var).1 := by
  unfold place
  split
  · omega
  · simp only
    omega

theorem mem_range_of_row (low : 1 ≤ row) (high : row ≤ size) :
    part.value column row ∈ part.range size column := by
  rw [range, IntDomain.mem_interval]
  cases part <;> simp only [value] <;> omega

/-- The numbers of all parts are within the signed range on a board that is not too large. -/
theorem inRange_of_mem_range (fits : Signed64.InRange (2 * size))
    (inside : column < size) {number : Int} (member : number ∈ part.range size column) :
    Signed64.InRange number := by
  rw [range, IntDomain.mem_interval] at member
  unfold Signed64.InRange Signed64.least Signed64.greatest at *
  cases part <;> simp only [value] at member <;> omega

end Part

/-! ## Placements by rows and diagonals -/

variable {size : Nat} {rows : List Int}

/-- Queens do not attack each other if no two of them do, wherever they stand. -/
theorem nonAttacking_iff : NonAttacking rows ↔
    ∀ column distance first second, rows[column]? = some first →
      rows[column + (distance + 1)]? = some second → Peaceful first second (distance + 1) := by
  induction rows with
  | nil => simp [NonAttacking]
  | cons queen right ih =>
    rw [NonAttacking, ih]
    constructor
    · rintro ⟨own, later⟩ (_ | column) distance first second here there
      · obtain rfl : queen = first := by simpa using here
        exact own distance second (by simpa using there)
      · refine later column distance first second (by simpa using here) ?_
        rwa [Nat.add_right_comm, List.getElem?_cons_succ] at there
    · intro all
      refine ⟨fun distance row there => ?_, fun column distance first second here there => ?_⟩
      · exact all 0 distance queen row rfl (by simpa using there)
      · refine all (column + 1) distance first second (by simpa using here) ?_
        rwa [Nat.add_right_comm, List.getElem?_cons_succ]

/-- The numbers of a part are all different if those of any two columns are. -/
theorem nodup_mapIdx_iff {part : Part} : (rows.mapIdx part.value).Nodup ↔
    ∀ column distance first second, rows[column]? = some first →
      rows[column + (distance + 1)]? = some second →
      part.value column first ≠ part.value (column + (distance + 1)) second := by
  rw [List.nodup_iff_getElem?_ne_getElem?]
  constructor
  · intro different column distance first second here there equal
    have inside : column + (distance + 1) < rows.length :=
      (List.getElem?_eq_some_iff.1 there).1
    refine different column (column + (distance + 1)) (by omega) (by simpa using inside) ?_
    rw [List.getElem?_mapIdx, List.getElem?_mapIdx, here, there, Option.map_some, Option.map_some,
      equal]
  · intro different first second before inside equal
    rw [List.length_mapIdx] at inside
    obtain ⟨distance, rfl⟩ : ∃ distance, second = first + (distance + 1) :=
      ⟨second - first - 1, by omega⟩
    have here : rows[first]? = some rows[first] := List.getElem?_eq_getElem (by omega)
    have there : rows[first + (distance + 1)]? = some rows[first + (distance + 1)] :=
      List.getElem?_eq_getElem inside
    rw [List.getElem?_mapIdx, List.getElem?_mapIdx, here, there] at equal
    exact different first distance _ _ here there (Option.some.inj equal)

/-- Two queens do not attack each other if their rows and their diagonals differ. -/
theorem peaceful_iff {first second : Int} {column distance : Nat} :
    Peaceful first second (distance + 1) ↔
      Part.queen.value column first ≠ Part.queen.value (column + (distance + 1)) second ∧
      Part.ascending.value column first ≠ Part.ascending.value (column + (distance + 1)) second ∧
      Part.descending.value column first ≠
        Part.descending.value (column + (distance + 1)) second := by
  simp only [Peaceful, Part.value]
  omega

/-- No two queens attack each other if rows and diagonals in both directions are all
different. -/
theorem nonAttacking_iff_nodup : NonAttacking rows ↔
    (rows.mapIdx Part.queen.value).Nodup ∧ (rows.mapIdx Part.ascending.value).Nodup ∧
      (rows.mapIdx Part.descending.value).Nodup := by
  simp only [nonAttacking_iff, nodup_mapIdx_iff]
  constructor
  · intro peaceful
    refine ⟨?_, ?_, ?_⟩ <;> intro column distance first second here there
    · exact (peaceful_iff.1 (peaceful column distance first second here there)).1
    · exact (peaceful_iff.1 (peaceful column distance first second here there)).2.1
    · exact (peaceful_iff.1 (peaceful column distance first second here there)).2.2
  · rintro ⟨row, up, down⟩ column distance first second here there
    exact peaceful_iff.2 ⟨row _ _ _ _ here there, up _ _ _ _ here there, down _ _ _ _ here there⟩

/-! ## The store of the model -/

/-- The sums that tie the diagonals of a column to its queen. -/
def columnRules (size column : Nat) : List Constraint :=
  [.sumEquals [Part.queen.var size column, Part.position.var size column]
      (Part.ascending.var size column),
    .sumEquals [Part.descending.var size column, Part.position.var size column]
      (Part.queen.var size column)]

/-- The demand that the numbers of a part are all different. -/
def apartRule (size : Nat) (part : Part) : Constraint :=
  .allDifferent ((List.range size).map (part.var size))

/-- Every variable of the store is the integer variable of its part, over all numbers that the
part can have. -/
structure Ranges (size : Nat) (s : Store) : Prop where
  formed : s.Formed
  kind : ∀ var, var.index < s.size → ∃ name, s.declaration? var = some ⟨name, .int⟩
  domain : ∀ var, var.index < s.size → s.domains.get? var =
    some (.int ((Part.place size var).2.range size (Part.place size var).1))

/-- The store has the queens and the diagonals of the first columns. -/
structure Built (size columns : Nat) (s : Store) : Prop where
  ranges : Ranges size s
  size_eq : s.size = size + 3 * columns
  rules : s.rules = (List.range columns).flatMap (columnRules size)

structure Modelled (size : Nat) (s : Store) : Prop where
  ranges : Ranges size s
  size_eq : s.size = 4 * size
  rules : s.rules = (List.range size).flatMap (columnRules size) ++
    [apartRule size .queen, apartRule size .ascending, apartRule size .descending]

section Construction

variable {s : Store} {column : Nat} {part : Part}

/-- The next variable of the model. -/
theorem Ranges.addInt (ranges : Ranges size s) (fits : Signed64.InRange (2 * size))
    (inside : column < size) (part : Part) (next : s.size = (part.var size column).index)
    (name : String) {low high : Int} (least : low = part.value column 1)
    (greatest : high = part.value column size) : Ranges size (s.addInt name low high).2 := by
  subst least greatest
  have new : part.var size column = ⟨s.size⟩ := by rw [next]
  have here : Part.place size ⟨s.size⟩ = (column, part) := new ▸ Part.place_var inside
  have old_or_new {var : VarId} (member : var.index < (s.addInt name (part.value column 1)
      (part.value column size)).2.size) : var.index < s.size ∨ var = ⟨s.size⟩ := by
    rw [Store.size_addInt] at member
    rcases Nat.lt_or_eq_of_le (Nat.le_of_lt_succ member) with before | same
    · exact .inl before
    · exact .inr (congrArg VarId.mk same)
  refine ⟨?_, fun var member => ?_, fun var member => ?_⟩
  · refine ranges.formed.declare name (IntDomain.canonical_interval _ _) fun value taken => ?_
    exact Part.inRange_of_mem_range fits inside taken
  · rw [Store.addInt, Store.declaration?_declare]
    rcases old_or_new member with before | rfl
    · rw [if_neg (Nat.ne_of_lt before)]
      exact ranges.kind var before
    · exact ⟨name, if_pos rfl⟩
  · rw [Store.addInt, Store.get?_declare ranges.formed.sizes]
    rcases old_or_new member with before | rfl
    · rw [if_neg (Nat.ne_of_lt before)]
      exact ranges.domain var before
    · rw [if_pos rfl, here]
      rfl

theorem Ranges.addConstraint (ranges : Ranges size s) {c : Constraint}
    (scope : ∀ var ∈ c.scope, var.index < s.size) : Ranges size (s.addConstraint c) :=
  ⟨ranges.formed.addConstraint scope, ranges.kind, ranges.domain⟩

/-- The next variable of the model together with a sum that speaks of it. -/
theorem Ranges.addTied (ranges : Ranges size s) (fits : Signed64.InRange (2 * size))
    (inside : column < size) (part : Part) (next : s.size = (part.var size column).index)
    (name : String) {low high : Int} (least : low = part.value column 1)
    (greatest : high = part.value column size) {x y z : Nat} (first : x ≤ s.size)
    (second : y ≤ s.size) (total : z ≤ s.size) :
    let s' := (s.addInt name low high).2.addConstraint (.sumEquals [⟨x⟩, ⟨y⟩] ⟨z⟩)
    Ranges size s' ∧ s'.size = s.size + 1 ∧
      s'.rules = s.rules ++ [.sumEquals [⟨x⟩, ⟨y⟩] ⟨z⟩] := by
  refine ⟨?_, by simp, by simp⟩
  have wider := ranges.addInt fits inside part next name least greatest
  refine wider.addConstraint fun var member => ?_
  simp only [Constraint.scope, List.cons_append, List.nil_append, List.mem_cons,
    List.not_mem_nil, or_false] at member
  rw [Store.size_addInt]
  rcases member with rfl | rfl | rfl
  · exact Nat.lt_succ_of_le first
  · exact Nat.lt_succ_of_le second
  · exact Nat.lt_succ_of_le total

/-- The queens are the first variables. -/
theorem ranges_queens (fits : Signed64.InRange (2 * size)) {columns : Nat}
    (le : columns ≤ size) :
    let s := (List.range columns).foldl (fun s i => (s.addInt s!"q{i + 1}" 1 size).2) Store.empty
    Ranges size s ∧ s.size = columns ∧ s.rules = [] := by
  induction columns with
  | zero => exact ⟨⟨Store.formed_empty, by simp [Store.size, Store.empty],
      by simp [Store.size, Store.empty]⟩, rfl, rfl⟩
  | succ columns ih =>
    obtain ⟨ranges, own, free⟩ := ih (by omega)
    simp only [List.range_succ, List.foldl_append, List.foldl_cons, List.foldl_nil]
    refine ⟨ranges.addInt fits le .queen own _ rfl rfl, ?_, free⟩
    rw [Store.size_addInt, own]

theorem built_queenStore (fits : Signed64.InRange (2 * size)) :
    Built size 0 (queenStore size) := by
  obtain ⟨ranges, own, free⟩ := ranges_queens fits (le_refl size)
  exact ⟨ranges, own, free⟩

/-- The diagonals of the next column. -/
theorem Built.addDiagonals (built : Built size column s)
    (fits : Signed64.InRange (2 * size)) (inside : column < size) :
    (Samples.addDiagonals size s (column + 1) ⟨column⟩).1 =
        (Part.ascending.var size column, Part.descending.var size column) ∧
      Built size (column + 1) (Samples.addDiagonals size s (column + 1) ⟨column⟩).2 := by
  obtain ⟨ranges, own, rules⟩ := built
  have number : ((column + 1 : Nat) : Int) = column + 1 := by omega
  obtain ⟨s₁, def₁⟩ : ∃ s₁, s₁ = (s.addInt s!"c{column + 1}" (column + 1 : Nat)
    (column + 1 : Nat)).2 := ⟨_, rfl⟩
  obtain ⟨s₂, def₂⟩ : ∃ s₂, s₂ = (s₁.addInt s!"up{column + 1}" (1 + (column + 1 : Nat))
    (size + (column + 1 : Nat))).2.addConstraint (.sumEquals [⟨column⟩, ⟨s.size⟩] ⟨s₁.size⟩) :=
    ⟨_, rfl⟩
  obtain ⟨s₃, def₃⟩ : ∃ s₃, s₃ = (s₂.addInt s!"down{column + 1}" (1 - (column + 1 : Nat))
    (size - (column + 1 : Nat))).2.addConstraint (.sumEquals [⟨s₂.size⟩, ⟨s.size⟩] ⟨column⟩) :=
    ⟨_, rfl⟩
  have result : Samples.addDiagonals size s (column + 1) ⟨column⟩ =
      ((⟨s₁.size⟩, ⟨s₂.size⟩), s₃) := by
    subst def₃ def₂ def₁
    rfl
  obtain ⟨ranges₁, own₁, rules₁⟩ :
      Ranges size s₁ ∧ s₁.size = s.size + 1 ∧ s₁.rules = s.rules := by
    rw [def₁]
    exact ⟨ranges.addInt fits inside .position own _ number number, Store.size_addInt .., rfl⟩
  obtain ⟨ranges₂, own₂, rules₂⟩ := def₂ ▸ ranges₁.addTied fits inside .ascending
    (by rw [own₁, own]; rfl) s!"up{column + 1}" (by rw [number]; rfl) (by rw [number]; rfl)
    (by omega : column ≤ s₁.size) (by omega : s.size ≤ s₁.size) le_rfl
  obtain ⟨ranges₃, own₃, rules₃⟩ := def₃ ▸ ranges₂.addTied fits inside .descending
    (by rw [own₂, own₁, own]; rfl) s!"down{column + 1}" (by rw [number]; rfl) (by rw [number]; rfl)
    le_rfl (by omega : s.size ≤ s₂.size) (by omega : column ≤ s₂.size)
  rw [result, own₂, own₁, own]
  refine ⟨rfl, ranges₃, (show s₃.size = _ by omega), ?_⟩
  rw [rules₃, rules₂, rules₁, rules, own₂, own₁, own, List.range_succ, List.flatMap_append]
  simp [columnRules, Part.var]

/-- The diagonals of several columns. -/
theorem Built.addAllDiagonals (built : Built size column s)
    (fits : Signed64.InRange (2 * size)) {rest : Nat} (inside : column + rest ≤ size) :
    (Samples.addAllDiagonals size s (column + 1) ((List.range' column rest).map VarId.mk)).1 =
        (List.range' column rest).map (fun column =>
          (Part.ascending.var size column, Part.descending.var size column)) ∧
      Built size (column + rest) (Samples.addAllDiagonals size s (column + 1)
        ((List.range' column rest).map VarId.mk)).2 := by
  induction rest generalizing column s with
  | zero => exact ⟨rfl, built⟩
  | succ rest ih =>
    obtain ⟨own, built⟩ := built.addDiagonals fits (by omega)
    obtain ⟨later, whole⟩ := ih built (by omega)
    rw [Nat.add_right_comm, Nat.add_assoc] at whole
    simp only [List.range'_succ, List.map_cons, Samples.addAllDiagonals, own, later]
    exact ⟨trivial, whole⟩

/-- The last three rules speak of the variables of one part. -/
theorem Ranges.addApart (ranges : Ranges size s) (whole : s.size = 4 * size) (part : Part) :
    Ranges size (s.addConstraint (apartRule size part)) := by
  refine ranges.addConstraint fun var member => ?_
  obtain ⟨column, inside, rfl⟩ := List.mem_map.1 member
  rw [whole]
  exact Part.index_var_lt (List.mem_range.1 inside)

theorem modelled_queens (fits : Signed64.InRange (2 * size)) :
    Modelled size (queens size) := by
  obtain ⟨diagonals, built⟩ := (built_queenStore fits).addAllDiagonals fits (Nat.zero_add size).le
  rw [← List.range_eq_range', Nat.zero_add] at built
  rw [← List.range_eq_range', Nat.zero_add] at diagonals
  have result : queens size = (((addAllDiagonals size (queenStore size) 1
      ((List.range size).map VarId.mk)).2.addConstraint (apartRule size .queen)).addConstraint
      (apartRule size .ascending)).addConstraint (apartRule size .descending) := by
    simp only [queens, queenVariables, diagonals, List.map_map]
    rfl
  obtain ⟨ranges, own, rules⟩ := built
  have whole : (addAllDiagonals size (queenStore size) 1
      ((List.range size).map VarId.mk)).2.size = 4 * size := own.trans (by omega)
  rw [result]
  refine ⟨((ranges.addApart whole _).addApart whole _).addApart whole _, whole, ?_⟩
  simp [rules]

end Construction

section Contents

variable {s : Store} {assignment : Assignment} {column : Nat} {c : Constraint}

theorem Modelled.exists_declaration (modelled : Modelled size s) (part : Part)
    (inside : column < size) :
    ∃ name, s.declaration? (part.var size column) = some ⟨name, .int⟩ :=
  modelled.ranges.kind _ (modelled.size_eq ▸ Part.index_var_lt inside)

theorem Modelled.get?_var (modelled : Modelled size s) (part : Part) (inside : column < size) :
    s.domains.get? (part.var size column) = some (.int (part.range size column)) := by
  rw [modelled.ranges.domain _ (modelled.size_eq ▸ Part.index_var_lt inside),
    Part.place_var inside]

/-- The model admits the numbers of a part. -/
theorem Modelled.admitsAt_iff (modelled : Modelled size s) (part : Part)
    (inside : column < size) : s.AdmitsAt assignment (part.var size column) ↔
      ∃ number, assignment (part.var size column) = some (.int number) ∧
        number ∈ part.range size column := by
  obtain ⟨name, declared⟩ := modelled.exists_declaration part inside
  unfold Store.AdmitsAt
  rw [declared, modelled.get?_var part inside]
  constructor
  · rintro ⟨value, given, admits⟩
    cases value with
    | int number => exact ⟨number, given, admits⟩
    | bool _ | set _ => exact admits.elim
  · rintro ⟨number, given, member⟩
    exact ⟨.int number, given, member⟩

/-- The rules are the sums of the columns and the demands to be all different. -/
theorem Modelled.mem_rules_iff (modelled : Modelled size s) : c ∈ s.rules ↔
    (∃ column < size, c ∈ columnRules size column) ∨ ∃ part, part ≠ .position ∧
      c = apartRule size part := by
  rw [modelled.rules, List.mem_append, List.mem_flatMap]
  refine or_congr (by simp only [List.mem_range]) ?_
  simp only [List.mem_cons, List.not_mem_nil, or_false]
  constructor
  · rintro (rfl | rfl | rfl)
    · exact ⟨.queen, nofun, rfl⟩
    · exact ⟨.ascending, nofun, rfl⟩
    · exact ⟨.descending, nofun, rfl⟩
  · rintro ⟨part, distinct, rfl⟩
    cases part with
    | queen => exact .inl rfl
    | position => exact absurd rfl distinct
    | ascending => exact .inr (.inl rfl)
    | descending => exact .inr (.inr rfl)

end Contents

/-! ## The assignments of the model -/

def assignmentOf (size : Nat) (rows : List Int) : Assignment := fun var =>
  rows[(Part.place size var).1]?.map fun row =>
    .int ((Part.place size var).2.value (Part.place size var).1 row)

def rowsOf (size : Nat) (assignment : Assignment) : List Int :=
  (queenVariables size).filterMap assignment.int?

section Assignments

variable {s : Store} {assignment : Assignment} {column : Nat} {part : Part}

theorem assignmentOf_var (inside : column < size) :
    assignmentOf size rows (part.var size column) =
      rows[column]?.map fun row => .int (part.value column row) := by
  rw [assignmentOf, Part.place_var inside]

theorem assignmentOf_of_le (full : rows.length = size) {var : VarId}
    (outside : 4 * size ≤ var.index) : assignmentOf size rows var = none := by
  have beyond : rows.length ≤ (Part.place size var).1 := full.trans_le (Part.le_place outside)
  rw [assignmentOf, List.getElem?_eq_none beyond, Option.map_none]

theorem int?_assignmentOf (inside : column < size) :
    (assignmentOf size rows).int? (part.var size column) =
      rows[column]?.map (part.value column) := by
  rw [Assignment.int?, assignmentOf_var inside]
  cases rows[column]? <;> rfl

/-- The integers at the variables of a part are its numbers. -/
theorem map_int?_assignmentOf (full : rows.length = size) (part : Part) :
    ((List.range size).map (part.var size)).map (assignmentOf size rows).int? =
      (rows.mapIdx part.value).map some := by
  refine List.ext_getElem (by simp [full]) fun column inside inside' => ?_
  have here : column < size := by simpa using inside
  have there : rows[column]? = some rows[column] := List.getElem?_eq_getElem (full ▸ here)
  simp [int?_assignmentOf here, there]

/-- The rows that an assignment stands for are those of its queens. -/
theorem rowsOf_assignmentOf (full : rows.length = size) :
    rowsOf size (assignmentOf size rows) = rows := by
  have same : rows.mapIdx Part.queen.value = rows :=
    List.ext_getElem (by simp) (by simp [Part.value])
  calc rowsOf size (assignmentOf size rows)
      = (((List.range size).map (Part.queen.var size)).map (assignmentOf size rows).int?).filterMap
          id := by rw [List.filterMap_map]; rfl
    _ = rows := by rw [map_int?_assignmentOf full, same]; simp

theorem holds_apartRule_iff (full : rows.length = size) :
    (apartRule size part).Holds (assignmentOf size rows) ↔ (rows.mapIdx part.value).Nodup := by
  simp only [Constraint.Holds, apartRule, Constraint.scope, Constraint.Relates,
    map_int?_assignmentOf full]
  constructor
  · rintro ⟨values, same, nodup⟩
    rwa [List.map_injective_iff.2 (Option.some_injective _) same]
  · intro nodup
    exact ⟨_, rfl, nodup⟩

/-- A sum of two terms. -/
theorem holds_sumEquals_pair_iff {x y z : VarId} :
    (Constraint.sumEquals [x, y] z).Holds assignment ↔ ∃ a b, assignment.int? x = some a ∧
      assignment.int? y = some b ∧ assignment.int? z = some (a + b) := by
  rw [Constraint.holds_sumEquals_iff]
  constructor
  · rintro ⟨values, places, total⟩
    obtain ⟨a, b, rfl⟩ : ∃ a b, values = [a, b] :=
      List.length_eq_two.1 (by simpa using (congrArg List.length places).symm)
    simp only [List.map_cons, List.map_nil, List.cons.injEq, and_true] at places
    exact ⟨a, b, places.1, places.2, by simpa [sumOf_cons, sumOf_nil] using total⟩
  · rintro ⟨a, b, first, second, total⟩
    exact ⟨[a, b], by simp [first, second], by simpa [sumOf_cons, sumOf_nil] using total⟩

/-- The sums of a column hold wherever the queen stands. -/
theorem holds_columnRules (full : rows.length = size) (inside : column < size) {c : Constraint}
    (member : c ∈ columnRules size column) : c.Holds (assignmentOf size rows) := by
  have there : rows[column]? = some rows[column] := List.getElem?_eq_getElem (full ▸ inside)
  have number (part : Part) : (assignmentOf size rows).int? (part.var size column) =
      some (part.value column rows[column]) := by
    rw [int?_assignmentOf inside, there, Option.map_some]
  simp only [columnRules, List.mem_cons, List.not_mem_nil, or_false] at member
  rcases member with rfl | rfl <;> rw [holds_sumEquals_pair_iff]
  · exact ⟨_, _, number .queen, number .position, number .ascending⟩
  · refine ⟨_, _, number .descending, number .position, (number .queen).trans ?_⟩
    exact congrArg some (Int.sub_add_cancel _ _).symm

/-- A placement satisfies the model. -/
theorem Placement.satisfies (placement : Placement size rows) (modelled : Modelled size s) :
    s.Satisfies (assignmentOf size rows) := by
  obtain ⟨full, onBoard, nonAttacking⟩ := placement
  refine Store.satisfies_iff_rules.2 ⟨fun var => ?_, fun c rule => ?_⟩
  · rcases Nat.lt_or_ge var.index (4 * size) with inside | outside
    · obtain ⟨part, column, before, rfl⟩ := Part.exists_var inside
      have there : rows[column]? = some rows[column] := List.getElem?_eq_getElem (full ▸ before)
      obtain ⟨low, high⟩ := onBoard rows[column] (List.getElem_mem _)
      refine (modelled.admitsAt_iff part before).2 ⟨_, ?_, Part.mem_range_of_row low high⟩
      rw [assignmentOf_var before, there, Option.map_some]
    · unfold Store.AdmitsAt
      rw [Store.declaration?_of_le (modelled.size_eq.trans_le outside)]
      exact assignmentOf_of_le full outside
  · obtain ⟨row, up, down⟩ := nonAttacking_iff_nodup.1 nonAttacking
    rcases modelled.mem_rules_iff.1 rule with ⟨column, inside, member⟩ | ⟨part, distinct, rfl⟩
    · exact holds_columnRules full inside member
    · rw [holds_apartRule_iff full]
      cases part with
      | queen => exact row
      | position => exact absurd rfl distinct
      | ascending => exact up
      | descending => exact down

/-- In a satisfying assignment the parts of a column have the numbers of a row. -/
theorem Modelled.exists_row (modelled : Modelled size s) (satisfies : s.Satisfies assignment)
    (inside : column < size) : ∃ row : Int, (1 ≤ row ∧ row ≤ size) ∧
      ∀ part : Part, assignment (part.var size column) = some (.int (part.value column row)) := by
  obtain ⟨admits, holds⟩ := Store.satisfies_iff_rules.1 satisfies
  have number (part : Part) := (modelled.admitsAt_iff part inside).1 (admits _)
  have rule {c : Constraint} (member : c ∈ columnRules size column) : c.Holds assignment :=
    holds c (modelled.mem_rules_iff.2 (.inl ⟨column, inside, member⟩))
  have reads {part : Part} {number : Int}
      (given : assignment (part.var size column) = some (.int number)) :
      assignment.int? (part.var size column) = some number := by
    rw [Assignment.int?, given]
    rfl
  obtain ⟨row, queen, onBoard⟩ := number .queen
  obtain ⟨position, numbered, fixed⟩ := number .position
  obtain ⟨up, ascending, -⟩ := number .ascending
  obtain ⟨down, descending, -⟩ := number .descending
  obtain ⟨_, _, term, term', total⟩ := holds_sumEquals_pair_iff.1 (rule (.head _))
  obtain ⟨_, _, part, part', whole⟩ := holds_sumEquals_pair_iff.1 (rule (.tail _ (.head _)))
  rw [reads queen] at term whole
  rw [reads numbered] at term' part'
  rw [reads ascending] at total
  rw [reads descending] at part
  simp only [Option.some.injEq] at term term' total part part' whole
  have fixed : position = column + 1 := by
    rw [Part.range, IntDomain.mem_interval] at fixed
    exact le_antisymm fixed.2 fixed.1
  refine ⟨row, IntDomain.mem_interval.1 onBoard, fun part => ?_⟩
  cases part with
  | queen => exact queen
  | position => rw [numbered, fixed, Part.value]
  | ascending => rw [ascending, Part.value, show up = row + (column + 1) by omega]
  | descending => rw [descending, Part.value, show down = row - (column + 1) by omega]

/-- The assignments that satisfy the model are those of the placements. -/
theorem Modelled.satisfies_iff (modelled : Modelled size s) :
    s.Satisfies assignment ↔ ∃ rows, Placement size rows ∧ assignment = assignmentOf size rows := by
  constructor
  · intro satisfies
    choose! row onBoard numbers using
      fun column (inside : column < size) => modelled.exists_row satisfies inside
    have full : ((List.range size).map row).length = size := by simp
    have same : assignment = assignmentOf size ((List.range size).map row) := by
      funext var
      rcases Nat.lt_or_ge var.index (4 * size) with inside | outside
      · obtain ⟨part, column, before, rfl⟩ := Part.exists_var inside
        rw [numbers column before part, assignmentOf_var before]
        simp [before]
      · rw [satisfies.eq_none (modelled.size_eq.trans_le outside), assignmentOf_of_le full outside]
    have apart {part : Part} (distinct : part ≠ .position) :
        (((List.range size).map row).mapIdx part.value).Nodup := by
      rw [← holds_apartRule_iff full, ← same]
      exact (Store.satisfies_iff_rules.1 satisfies).2 _
        (modelled.mem_rules_iff.2 (.inr ⟨part, distinct, rfl⟩))
    refine ⟨_, ⟨full, fun _ member => ?_, ?_⟩, same⟩
    · obtain ⟨column, inside, rfl⟩ := List.mem_map.1 member
      exact onBoard column (List.mem_range.1 inside)
    · exact nonAttacking_iff_nodup.2 ⟨apart nofun, apart nofun, apart nofun⟩
  · rintro ⟨rows, placement, rfl⟩
    exact placement.satisfies modelled

end Assignments

end Samples

end StagedSearch
