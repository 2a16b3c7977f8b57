/-
# Searching for placements of queens

A complete run for the goal to satisfy over the queens model labels the queens only. Nobody
labels the helpers of a column, and yet nothing is accepted unchecked: a stable sum in which all
places but one are decided decides the last one. So a leaf, which is stable and has the queens
decided, has everything decided, and it is one of the satisfying assignments, which are the
placements.
-/

import StagedSearch.Proofs.Model.Queens
import StagedSearch.Proofs.Search.Enumeration

namespace StagedSearch

/-! ## Sums with one open place -/

namespace DomainTable

variable {t : DomainTable} {var x y z : VarId} {a b c : Int}

/-- Where the bounds meet, the variable is decided. -/
theorem Spans.decides (spans : t.Spans var a a) (canonical : t.Canonical) : t.Decides var a := by
  obtain ⟨d, here, -, -⟩ := id spans
  refine ⟨d, here, (canonical.int? here).value?_eq_some_iff.2 fun other => ⟨fun inside => ?_, ?_⟩⟩
  · obtain ⟨low, high⟩ := spans.bounds canonical ⟨d, here, inside⟩
    exact le_antisymm high low
  · rintro rfl
    obtain ⟨e, there, inside⟩ := (spans.holds canonical).1
    obtain rfl := Option.some.inj (here.symm.trans there)
    exact inside

theorem Decides.decided (decides : t.Decides var a) : t.Decided var := by
  obtain ⟨d, here, only⟩ := decides
  exact ⟨_, int?_eq_some_iff.1 here, Option.isSome_of_eq_some only⟩

/-- What stability of a sum of two terms says. -/
theorem exists_spans_of_stable (stable : (Constraint.sumEquals [x, y] z).Stable t) :
    ∃ xMin xMax yMin yMax zMin zMax, t.Spans x xMin xMax ∧ t.Spans y yMin yMax ∧
      t.Spans z zMin zMax ∧ (Signed64.clamp (xMin + yMin) ≤ zMin ∧
        zMax ≤ Signed64.clamp (xMax + yMax)) ∧
      Signed64.clamp (zMin - yMax) ≤ xMin ∧ xMax ≤ Signed64.clamp (zMax - yMin) := by
  obtain ⟨spans, zMin, zMax, terms, total, whole, parts⟩ := stable
  obtain ⟨x', later, first, terms', rfl⟩ := List.forall₂_cons_left_iff.1 terms
  obtain ⟨y', none, second, no, rfl⟩ := List.forall₂_cons_left_iff.1 terms'
  obtain rfl := List.forall₂_nil_left_iff.1 no
  have own := parts x' (.head _)
  simp only [List.map_cons, List.map_nil, sumOf_cons, sumOf_nil, Int.add_zero] at whole own
  have others (a b : Int) : a + b - a = b := by omega
  rw [others, others] at own
  exact ⟨_, _, _, _, _, _, first, second, total, whole, own⟩

/-- A stable sum of decided terms is decided. -/
theorem Decides.total_of_stable (first : t.Decides x a) (second : t.Decides y b)
    (stable : (Constraint.sumEquals [x, y] z).Stable t) (canonical : t.Canonical) :
    ∃ c, t.Decides z c := by
  obtain ⟨_, _, _, _, low, high, x', y', z', ⟨above, below⟩, -⟩ := exists_spans_of_stable stable
  obtain ⟨rfl, rfl⟩ := x'.unique first.spans
  obtain ⟨rfl, rfl⟩ := y'.unique second.spans
  obtain ⟨le, -⟩ := z'.bounds canonical (z'.holds canonical).2
  obtain rfl : low = high := le_antisymm le (below.trans above)
  exact ⟨low, z'.decides canonical⟩

/-- A term of a stable sum is decided once the other one and the total are. -/
theorem Decides.term_of_stable (second : t.Decides y b) (total : t.Decides z c)
    (stable : (Constraint.sumEquals [x, y] z).Stable t) (canonical : t.Canonical) :
    ∃ a, t.Decides x a := by
  obtain ⟨low, high, _, _, _, _, x', y', z', -, above, below⟩ := exists_spans_of_stable stable
  obtain ⟨rfl, rfl⟩ := y'.unique second.spans
  obtain ⟨rfl, rfl⟩ := z'.unique total.spans
  obtain ⟨le, -⟩ := x'.bounds canonical (x'.holds canonical).2
  obtain rfl : low = high := le_antisymm le (below.trans above)
  exact ⟨low, x'.decides canonical⟩

end DomainTable

/-! ## Leaves of the model -/

namespace Store

variable {s u : Store} {bound : Option VarId} {vars : List VarId} {size : Nat}

/-- A leaf that has the queens decided has everything decided. -/
theorem Leaf.decided_of_modelled (leaf : Leaf bound vars s u) (modelled : Samples.Modelled size s)
    (labels : ∀ var ∈ Samples.queenVariables size, var ∈ vars) {var : VarId}
    (inside : var.index < u.size) : u.domains.Decided var := by
  have formed := modelled.ranges.formed
  have canonical := leaf.descends.formed.canonical
  have size_eq : u.size = 4 * size :=
    (congrArg Array.size leaf.descends.declarations).trans modelled.size_eq
  obtain ⟨part, column, before, rfl⟩ := Samples.Part.exists_var (size_eq ▸ inside)
  have decides {part : Samples.Part} (decided : u.domains.Decided (part.var size column)) :
      ∃ value, u.domains.Decides (part.var size column) value := by
    obtain ⟨name, kind⟩ := modelled.exists_declaration part before
    obtain ⟨value, given⟩ := leaf.descends.formed.exists_int?_eq_some
      ((leaf.descends.declaration?_eq _).trans kind) nofun decided
    exact ⟨value, leaf.descends.formed.int?_eq_some_iff.1 given⟩
  have rule {c : Constraint} (member : c ∈ Samples.columnRules size column) :
      c.Stable u.domains :=
    leaf.stable c (modelled.mem_rules_iff.2 (.inl ⟨column, before, member⟩))
  have queen : u.domains.Decided (Samples.Part.queen.var size column) :=
    leaf.decided _ (labels _ (List.mem_map.2 ⟨column, List.mem_range.2 before, rfl⟩))
  have position : u.domains.Decided (Samples.Part.position.var size column) :=
    leaf.descends.decided formed ⟨_, modelled.get?_var .position before,
      Value.isSingleton_domain (.int (column + 1))⟩
  -- From here on stability decides: each sum of the column has one open place.
  obtain ⟨_, queen'⟩ := decides queen
  obtain ⟨_, position'⟩ := decides position
  cases part with
  | queen => exact queen
  | position => exact position
  | ascending =>
    obtain ⟨_, up⟩ := queen'.total_of_stable position' (rule (.head _)) canonical
    exact up.decided
  | descending =>
    obtain ⟨_, down⟩ := position'.term_of_stable queen' (rule (.tail _ (.head _))) canonical
    exact down.decided

end Store

/-! ## The search -/

namespace SearchSpec

variable {ρ : Type} [Reporter ρ] {spec : SearchSpec} {names : Names} {context : Context ρ}
  {t : SearchTree} {size : Nat}

/-- A thorough search that labels the queens reports each placement once, and nothing else.
The board is small enough for its diagonals to have numbers in the signed range. -/
theorem reports_placements_of_queens (fits : Signed64.InRange (2 * size))
    (goal : spec.goal = .satisfy) (thorough : spec.Thorough names (Samples.queens size) context t)
    (labels : ∀ var, var ∈ t.vars ↔ var ∈ Samples.queenVariables size) :
    ∃ solutions : List Solution,
      context.listener.Reports
        (t.run ((spec.build names (Samples.queens size) context).start t)).2.context.listener
        solutions ∧
      (solutions.map fun solution => Samples.rowsOf size solution.value?).Nodup ∧
      ∀ rows, Samples.Placement size rows ↔
        rows ∈ solutions.map fun solution => Samples.rowsOf size solution.value? := by
  have modelled := Samples.modelled_queens fits
  have formed := modelled.ranges.formed
  obtain ⟨leaves, listener, leaf, apart, covers, declared⟩ :=
    exists_completes_of_satisfy formed goal thorough
  have decided (u : Store) (member : u ∈ leaves) (var : VarId) (inside : var.index < u.size) :
      u.domains.Decided var :=
    (leaf u member).decided_of_modelled modelled
      (fun queen inside => SearchTree.mem_vars.1 ((labels queen).2 inside)) inside
  have values : (context.listener.solutions leaves).map (fun solution =>
      Samples.rowsOf size solution.value?) =
      (leaves.map Store.value?).map (Samples.rowsOf size) := by
    rw [← Listener.value?_solutions context.listener, List.map_map]
    rfl
  -- An assignment that a leaf has come to is the one of a placement, and so given by its rows.
  have placed {assignment : Assignment} : assignment ∈ leaves.map Store.value? ↔
      ∃ rows, Samples.Placement size rows ∧ assignment = Samples.assignmentOf size rows :=
    (covers.satisfies_iff formed leaf decided declared).symm.trans modelled.satisfies_iff
  refine ⟨context.listener.solutions leaves, ?_, ?_, fun rows => ?_⟩
  · rw [listener]
    exact Listener.reports_acceptAll _ leaves
  · rw [values]
    have once := Store.nodup_value? leaf declared apart
    refine once.map_on fun first inside second inside' same => ?_
    obtain ⟨rows, placement, rfl⟩ := placed.1 inside
    obtain ⟨rows', placement', rfl⟩ := placed.1 inside'
    rw [Samples.rowsOf_assignmentOf placement.full, Samples.rowsOf_assignmentOf placement'.full]
      at same
    rw [same]
  · rw [values, List.mem_map]
    constructor
    · intro placement
      exact ⟨_, placed.2 ⟨rows, placement, rfl⟩, Samples.rowsOf_assignmentOf placement.full⟩
    · rintro ⟨_, member, rfl⟩
      obtain ⟨rows, placement, rfl⟩ := placed.1 member
      rwa [Samples.rowsOf_assignmentOf placement.full]

/-- Four queens, labelled in two stages, the second one at random. -/
theorem reports_placements_of_queens_four :
    ∃ (spec : SearchSpec) (context : Context NoReporter) (t : SearchTree)
      (solutions : List Solution), spec.Thorough Names.empty (Samples.queens 4) context t ∧
      context.listener.Reports
        (t.run ((spec.build Names.empty (Samples.queens 4) context).start t)).2.context.listener
        solutions ∧
      (solutions.map fun solution => Samples.rowsOf 4 solution.value?).Nodup ∧
      (∀ rows, Samples.Placement 4 rows ↔
        rows ∈ solutions.map fun solution => Samples.rowsOf 4 solution.value?) ∧
      [2, 4, 1, 3] ∈ solutions.map fun solution => Samples.rowsOf 4 solution.value? := by
  let directive : SearchDirective :=
    .seq [.leaf .int ⟨[⟨0⟩, ⟨2⟩], some .firstFail, some .middle, .complete⟩,
      .leaf .int ⟨[⟨1⟩, ⟨3⟩], some .inputOrder, some .random, .complete⟩]
  let spec : SearchSpec := ⟨.satisfy, none, some directive⟩
  let context : Context NoReporter := Context.ofListener (Listener.all none)
  let seed := (Generator.ofSeed 0).nextNumber.1
  let t := SearchTree.ofStages none
    [⟨⟨.int, [⟨0⟩, ⟨2⟩], .firstFail, .middle, .complete, .middleOut⟩, .explicit⟩,
      ⟨⟨.int, [⟨1⟩, ⟨3⟩], .inputOrder, .random, .complete, .random (Generator.ofSeed seed)⟩,
        .explicit⟩]
  have thorough : spec.Thorough Names.empty (Samples.queens 4) context t :=
    ⟨rfl, SearchTree.complete_ofStages (by simp), rfl,
      Listener.endless_of_reporter_none rfl rfl rfl⟩
  have labels : ∀ var, var ∈ t.vars ↔ var ∈ Samples.queenVariables 4 := by
    have vars : t.vars = Samples.queenVariables 4 := rfl
    intro var
    rw [vars]
  obtain ⟨solutions, reports, once, exactly⟩ :=
    reports_placements_of_queens (by decide) rfl thorough labels
  have placement : Samples.Placement 4 [2, 4, 1, 3] :=
    ⟨rfl, by decide, Samples.nonAttacking_iff_nodup.2 (by decide)⟩
  exact ⟨spec, context, t, solutions, thorough, reports, once, exactly, (exactly _).1 placement⟩

end SearchSpec

end StagedSearch
