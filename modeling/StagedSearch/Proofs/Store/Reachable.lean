/-
# Reachable stores are well formed

Every operation keeps a store well formed, whether it succeeds or fails, and keeps each open
level such that closing it leads back. The two belong together: what closing a level brings
back has to be well formed as well, and it was when the level was opened.
-/

import StagedSearch.Proofs.Propagation.Fixpoint
import StagedSearch.Proofs.Store.Trail
import StagedSearch.Store.Operation

namespace StagedSearch

namespace Store

/-- What every operation of a store keeps: the table fits the declarations at every level,
constraints speak of declared variables, and they are listed by their levels. -/
structure Formed (s : Store) : Prop where
  nested : s.domains.Nested s.declarations
  sizes : s.domains.size = s.size
  scopes : ∀ imposed ∈ s.constraints, ∀ var ∈ imposed.constraint.scope, var.index < s.size
  ordered : (s.constraints.map Imposed.level).Pairwise (· ≤ ·)
  levels : ∀ imposed ∈ s.constraints, imposed.level ≤ s.level

variable {s : Store}

theorem Formed.wellFormed (formed : s.Formed) : s.WellFormed where
  domains := by
    refine ⟨formed.nested.fits.stamps, fun d member => ?_⟩
    obtain ⟨i, here⟩ := Array.mem_iff_getElem?.1 member
    exact formed.nested.fits.canonical ⟨i⟩ d here
  sizes := formed.sizes
  kinds := formed.nested.fits.suits
  scopes := formed.scopes
  ordered := formed.ordered
  levels := formed.levels

theorem Formed.canonical (formed : s.Formed) : s.domains.Canonical :=
  formed.nested.fits.canonical

/-- Every domain belongs to a declared variable, whose kind it suits. -/
theorem Formed.declared (formed : s.Formed) {var : VarId} {d : Domain}
    (here : s.domains.get? var = some d) : ∃ v, s.declaration? var = some v ∧ v.kind.Suits d := by
  have inside : var.index < s.declarations.size := by
    have := DomainTable.get?_isSome_iff.1 (Option.isSome_of_eq_some here)
    rwa [formed.sizes] at this
  have declared : s.declaration? var = some s.declarations[var.index] :=
    Array.getElem?_eq_getElem inside
  exact ⟨_, declared, formed.nested.fits.suits var _ d declared here⟩

/-- Every declared variable has a domain, which suits its kind. -/
theorem Formed.exists_domain (formed : s.Formed) {var : VarId} {v : Variable}
    (declared : s.declaration? var = some v) :
    ∃ d, s.domains.get? var = some d ∧ v.kind.Suits d := by
  have found : (s.domains.get? var).isSome := by
    rw [DomainTable.get?_isSome_iff, formed.sizes]
    exact (Array.getElem?_eq_some_iff.1 declared).1
  obtain ⟨d, here⟩ := Option.isSome_iff_exists.1 found
  exact ⟨d, here, formed.nested.fits.suits var v d declared here⟩

theorem Formed.sound (formed : s.Formed) : s.domains.Sound := by
  refine ⟨formed.canonical, ?_⟩
  rintro var value ⟨d, here, inside⟩
  obtain ⟨⟨name, kind⟩, -, suits⟩ := formed.declared (DomainTable.int?_eq_some_iff.1 here)
  cases kind with
  | int => exact suits value inside
  | bool => rcases suits value inside with rfl | rfl <;> decide
  | set => exact suits.elim

theorem Formed.inRange_int? (formed : s.Formed) {var : VarId} {d : IntDomain}
    (here : s.domains.int? var = some d) : d.InRange :=
  fun value inside => formed.sound.inRange var value ⟨d, here, inside⟩

/-! ## What each operation keeps -/

theorem formed_empty : empty.Formed where
  nested := by
    refine .flat ⟨rfl, ?_, ?_⟩ ?_ rfl
    · simp [DomainTable.Canonical, empty, DomainTable.empty, DomainTable.get?]
    · simp [empty, DomainTable.empty, DomainTable.get?]
    · simp [DomainTable.Stamped, empty, DomainTable.empty]
  sizes := rfl
  scopes := by simp [empty]
  ordered := by simp [empty]
  levels := by simp [empty]

/-- Narrowing keeps a store well formed, also where it fails. -/
theorem Formed.of_breaks (formed : s.Formed) {u : DomainTable} (breaks : s.domains.Breaks u) :
    { s with domains := u }.Formed where
  nested := breaks.nested formed.nested
  sizes := breaks.within.size_eq.trans formed.sizes
  scopes := formed.scopes
  ordered := formed.ordered
  levels imposed member := by
    have same : u.level = s.domains.level := breaks.level formed.nested
    show imposed.level ≤ u.level
    rw [same]
    exact formed.levels imposed member

/-- An operation that narrows changes nothing but the table, also where it fails. -/
theorem exists_breaks_of_narrow (canonical : s.domains.Canonical) {operation : Narrowing Bool}
    (carries : Narrowing.Carries false operation) :
    ∃ t, s.domains.Breaks t ∧ (s.narrow operation).2 = { s with domains := t } := by
  have follows := carries s.domains canonical
  unfold Store.narrow
  cases run : operation s.domains with
  | ok changed t =>
    rw [run] at follows
    exact ⟨t, .narrowed follows.1, rfl⟩
  | error e t =>
    rw [run] at follows
    exact ⟨t, follows, rfl⟩

/-- Propagation changes nothing but the table, also where it fails. -/
theorem exists_breaks_of_consistency (canonical : s.domains.Canonical) :
    ∃ t, s.domains.Breaks t ∧ s.consistency.2 = { s with domains := t } := by
  unfold Store.consistency
  cases run : s.domains.propagateAll (s.constraints.map Imposed.constraint) with
  | mk consistent t =>
    cases consistent with
    | true => exact ⟨t, .narrowed (DomainTable.narrows_of_propagateAll canonical run).1, rfl⟩
    | false => exact ⟨t, DomainTable.breaks_of_propagateAll canonical run, rfl⟩

theorem Formed.narrow (formed : s.Formed) {operation : Narrowing Bool}
    (carries : Narrowing.Carries false operation) : (s.narrow operation).2.Formed := by
  obtain ⟨t, breaks, equal⟩ := exists_breaks_of_narrow formed.canonical carries
  rw [equal]
  exact formed.of_breaks breaks

theorem Formed.consistency (formed : s.Formed) : s.consistency.2.Formed := by
  obtain ⟨t, breaks, equal⟩ := exists_breaks_of_consistency formed.canonical
  rw [equal]
  exact formed.of_breaks breaks

theorem Formed.declare (formed : s.Formed) (name : String) {kind : VarKind} {d : Domain}
    (canonical : d.Canonical) (suits : kind.Suits d) : (s.declare name kind d).2.Formed where
  nested := formed.nested.push formed.sizes canonical suits
  sizes := by
    have := formed.sizes
    simp only [Store.declare, DomainTable.size, DomainTable.push, Store.size,
      Array.size_push] at *
    omega
  scopes imposed member var inside := by
    have := formed.scopes imposed member var inside
    simp only [Store.declare, Store.size, Array.size_push] at *
    omega
  ordered := formed.ordered
  levels := formed.levels

theorem Formed.addConstraint (formed : s.Formed) {c : Constraint}
    (scope : ∀ var ∈ c.scope, var.index < s.size) : (s.addConstraint c).Formed where
  nested := formed.nested
  sizes := formed.sizes
  scopes imposed member := by
    rcases List.mem_append.1 member with before | last
    · exact formed.scopes imposed before
    · cases List.mem_singleton.1 last
      exact scope
  ordered := by
    simp only [Store.addConstraint, List.map_append, List.map_cons, List.map_nil]
    refine List.pairwise_append.2 ⟨formed.ordered, by simp, fun l member l' last => ?_⟩
    obtain ⟨imposed, before, rfl⟩ := List.mem_map.1 member
    cases List.mem_singleton.1 last
    exact formed.levels imposed before
  levels imposed member := by
    rcases List.mem_append.1 member with before | last
    · exact formed.levels imposed before
    · cases List.mem_singleton.1 last
      exact le_rfl

theorem Formed.impose (formed : s.Formed) {c : Constraint} {s' : Store}
    (accepted : s.impose c = .ok s') : s'.Formed := by
  unfold Store.impose at accepted
  split at accepted
  · cases accepted
  · rename_i none
    cases accepted
    refine formed.addConstraint fun var member => ?_
    have := List.find?_eq_none.1 none var member
    simpa [declaration?, Store.size] using this

theorem Formed.pushLevel (formed : s.Formed) : s.pushLevel.Formed where
  nested := formed.nested.pushLevel
  sizes := formed.sizes
  scopes := formed.scopes
  ordered := formed.ordered
  levels imposed member := (formed.levels imposed member).trans (Nat.le_succ _)

theorem Formed.popLevel (formed : s.Formed) : s.popLevel.Formed where
  nested := formed.nested.popLevel
  sizes := (DomainTable.size_popLevel s.domains).trans formed.sizes
  scopes imposed member := formed.scopes imposed (List.mem_filter.1 member).1
  ordered := formed.ordered.sublist (List.filter_sublist.map _)
  levels _ member := of_decide_eq_true (List.mem_filter.1 member).2

theorem Formed.apply (formed : s.Formed) {operation : StoreOperation}
    (inRange : operation.InRange) : (operation.apply s).Formed := by
  cases operation with
  | declareInt name min max =>
    simp only [StoreOperation.apply, declareInt]
    split
    · exact formed
    · refine formed.declare name (IntDomain.canonical_interval min max) fun value inside => ?_
      have := IntDomain.mem_interval.1 inside
      have := inRange.1
      have := inRange.2
      unfold Signed64.InRange at *
      omega
  | declareValues name values =>
    simp only [StoreOperation.apply, declareValues]
    split
    · exact formed
    · refine formed.declare name (IntDomain.canonical_ofValues values) fun value inside => ?_
      exact inRange value (IntDomain.mem_ofValues.1 inside)
  | declareBool name =>
    refine formed.declare name (IntDomain.canonical_interval 0 1) fun value inside => ?_
    have := IntDomain.mem_interval.1 inside
    omega
  | declareSet name glb lub =>
    simp only [StoreOperation.apply, declareSet]
    cases bounds : SetDomain.ofBounds? glb lub with
    | none => exact formed
    | some d => exact formed.declare name (SetDomain.Canonical.ofBounds? bounds) trivial
  | impose c =>
    simp only [StoreOperation.apply]
    split
    · rename_i accepted
      exact formed.impose accepted
    · exact formed
  | assign var value => exact formed.narrow (Narrowing.carries_restrict var value value)
  | removeValue var value => exact formed.narrow (Narrowing.carries_remove var value)
  | restrictMax var max => exact formed.narrow (Narrowing.carries_restrict var _ max)
  | includeElement var e => exact formed.narrow (Narrowing.carries_includeElement var e)
  | excludeElement var e => exact formed.narrow (Narrowing.carries_excludeElement var e)
  | consistency => exact formed.consistency
  | pushLevel => exact formed.pushLevel
  | popLevel => exact formed.popLevel

/-- Whatever operations reach is well formed. -/
theorem Reachable.formed (reached : s.Reachable) : s.Formed := by
  induction reached with
  | empty => exact formed_empty
  | step _ inRange ih => exact ih.apply inRange

/-! ## A level that is opened and closed -/

/-- Opening a level, narrowing and closing it again changes nothing. -/
theorem Formed.popLevel_of_breaks (formed : s.Formed) {u : DomainTable}
    (breaks : s.domains.pushLevel.Breaks u) : { s with domains := u }.popLevel = s := by
  obtain ⟨back, -⟩ := breaks.popLevel_of_pushLevel formed.nested
  have stays : s.constraints.filter (·.level ≤ s.domains.level) = s.constraints :=
    List.filter_eq_self.2 fun imposed member => decide_eq_true (formed.levels imposed member)
  simp only [Store.popLevel, back, stays]

end Store

end StagedSearch
