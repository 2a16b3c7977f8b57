/-
# Values and the domains that stand for them

A decided variable has one value, and its domain is the domain of that value; the kind of the
variable tells which of the values with this domain it is. So a table in which everything is
decided shows one assignment. A store is satisfied by an assignment exactly if a settled table
below the store shows it, and this is how propagation and search are measured by satisfaction.
-/

import StagedSearch.Proofs.Propagation.Ground
import StagedSearch.Proofs.Search.Attempt
import StagedSearch.Store.Satisfaction

namespace StagedSearch

/-- Whether a variable of some kind can have a value at all. The elements of a set are listed
in ascending order. -/
def VarKind.Takes : VarKind → Value → Prop
  | .int, .int _ => True
  | .bool, .bool _ => True
  | .set, .set elements => elements.Ascending
  | _, _ => False

/-- The domain that admits only one value. -/
def Value.domain : Value → Domain
  | .int value => .int (IntDomain.interval value value)
  | .bool value => .int (IntDomain.interval (if value then 1 else 0) (if value then 1 else 0))
  | .set elements => .set ⟨elements, elements⟩

namespace Value

variable {kind : VarKind} {value : Value} {d : Domain}

theorem mem_single {value other : Int} :
    other ∈ IntDomain.interval value value ↔ other = value := by
  rw [IntDomain.mem_interval]
  omega

theorem canonical_domain (takes : kind.Takes value) : value.domain.Canonical := by
  cases value with
  | int value => exact IntDomain.canonical_interval value value
  | bool value => exact IntDomain.canonical_interval _ _
  | set elements =>
    cases kind with
    | int => exact takes.elim
    | bool => exact takes.elim
    | set => exact ⟨takes, takes, fun _ inside => inside⟩

theorem hasValue_domain (value : Value) : value.domain.HasValue := by
  cases value with
  | int value => exact ⟨value, mem_single.2 rfl⟩
  | bool value => exact ⟨_, mem_single.2 rfl⟩
  | set elements => trivial

theorem isSingleton_domain (value : Value) : value.domain.isSingleton = true := by
  cases value with
  | int value =>
    simp [domain, Domain.isSingleton, IntDomain.isSingleton, IntDomain.value?_interval]
  | bool value =>
    simp [domain, Domain.isSingleton, IntDomain.isSingleton, IntDomain.value?_interval]
  | set elements => simp [domain, Domain.isSingleton, SetDomain.isSingleton]

theorem interval_inj {first second : Int} :
    IntDomain.interval first first = IntDomain.interval second second ↔ first = second := by
  constructor
  · intro equal
    exact mem_single.1 (equal ▸ mem_single.2 rfl)
  · rintro rfl
    rfl

/-- A value reads as an integer if its domain is the one of the integer. -/
theorem asInt?_eq_some_iff {number : Int} :
    value.asInt? = some number ↔ value.domain = .int (IntDomain.interval number number) := by
  cases value <;> simp [asInt?, domain, interval_inj]

theorem exists_asInt?_eq_some {d : IntDomain} (integer : value.domain = .int d) :
    ∃ number, value.asInt? = some number := by
  cases value with
  | int value => exact ⟨value, rfl⟩
  | bool value => exact ⟨_, rfl⟩
  | set elements => cases integer

/-- What a variable that is not a set takes reads as an integer. -/
theorem exists_asInt?_of_takes (takes : kind.Takes value) (numeric : kind ≠ .set) :
    ∃ number, value.asInt? = some number := by
  cases value with
  | int value => exact ⟨value, rfl⟩
  | bool value => exact ⟨_, rfl⟩
  | set elements =>
    cases kind with
    | int | bool => exact takes.elim
    | set => exact absurd rfl numeric

/-- A value lies in a domain if its own domain does. -/
theorem admits_iff : kind.Admits d value ↔ kind.Takes value ∧ value.domain.Within d := by
  cases kind <;> cases value <;> cases d <;>
    simp only [VarKind.Admits, VarKind.Takes, domain, Domain.Within, true_and, false_and,
      and_false, mem_single, forall_eq]
  exact ⟨fun admits => ⟨admits.ascending, admits.above, admits.below⟩,
    fun ⟨ascending, above, below⟩ => ⟨ascending, above, below⟩⟩

end Value

/-! ## The value of a variable -/

namespace Store

variable {s u : Store} {var : VarId} {v : Variable} {value : Value}

/-- A variable has a value exactly if its domain is that of the value, and its kind agrees. -/
theorem Formed.value?_eq_some_iff (formed : s.Formed) (declared : s.declaration? var = some v) :
    s.value? var = some value ↔ v.kind.Takes value ∧ s.domains.get? var = some value.domain := by
  obtain ⟨name, kind⟩ := v
  cases here : s.domains.get? var with
  | none => simp [value?, declared, here]
  | some d =>
    have suits := formed.nested.fits.suits var _ d declared here
    have canonical := formed.canonical var d here
    cases kind with
    | int =>
      cases d with
      | set d => exact suits.elim
      | int d =>
        simp only [value?, declared, here, Option.map_eq_some_iff,
          IntDomain.value?_eq_some_iff_interval]
        cases value <;> simp [VarKind.Takes, Value.domain]
    | bool =>
      cases d with
      | set d => exact suits.elim
      | int d =>
        simp only [value?, declared, here, Option.map_eq_some_iff,
          IntDomain.value?_eq_some_iff_interval]
        constructor
        · rintro ⟨number, rfl, rfl⟩
          rcases suits number (Value.mem_single.2 rfl) with rfl | rfl <;>
            simp [VarKind.Takes, Value.domain]
        · rintro ⟨takes, equal⟩
          cases value with
          | int value => exact takes.elim
          | set elements => exact takes.elim
          | bool value =>
            refine ⟨if value then 1 else 0, by simpa [Value.domain] using equal, ?_⟩
            cases value <;> rfl
    | set =>
      cases d with
      | int d => exact suits.elim
      | set d =>
        have formed : d.Canonical := canonical
        simp only [value?, declared, here]
        rw [Option.ite_none_right_eq_some, formed.isSingleton_iff]
        constructor
        · rintro ⟨same, equal⟩
          obtain rfl := Option.some.inj equal
          refine ⟨formed.lower, ?_⟩
          cases d
          simp_all [Value.domain]
        · rintro ⟨takes, equal⟩
          cases value with
          | int value => exact takes.elim
          | bool value => exact takes.elim
          | set elements =>
            obtain rfl : d = ⟨elements, elements⟩ := by simpa [Value.domain] using equal
            exact ⟨rfl, rfl⟩

/-- What is not declared has no value. -/
theorem value?_of_declaration?_none (undeclared : s.declaration? var = none) :
    s.value? var = none := by
  simp [value?, undeclared]

/-- A declared variable is decided exactly if it has a value. -/
theorem Formed.decided_iff (formed : s.Formed) (declared : s.declaration? var = some v) :
    s.domains.Decided var ↔ ∃ value, s.value? var = some value := by
  constructor
  · rintro ⟨d, here, single⟩
    have suits := formed.nested.fits.suits var _ d declared here
    have canonical := formed.canonical var d here
    obtain ⟨name, kind⟩ := v
    cases d with
    | int d =>
      obtain ⟨number, only⟩ := Option.isSome_iff_exists.1 single
      cases kind with
      | int => exact ⟨.int number, by simp [value?, declared, here, only]⟩
      | bool => exact ⟨.bool (number != 0), by simp [value?, declared, here, only]⟩
      | set => exact suits.elim
    | set d =>
      cases kind with
      | int => exact suits.elim
      | bool => exact suits.elim
      | set => exact ⟨.set d.glb, by simp_all [value?, Domain.isSingleton]⟩
  · rintro ⟨value, given⟩
    exact ⟨_, ((formed.value?_eq_some_iff declared).1 given).2, value.isSingleton_domain⟩

/-- A store has come to an integer exactly where its variable is decided by it. -/
theorem Formed.int?_eq_some_iff (formed : u.Formed) {number : Int} :
    Assignment.int? u.value? var = some number ↔ u.domains.Decides var number := by
  constructor
  · intro given
    obtain ⟨value, reached, reads⟩ := Option.bind_eq_some_iff.1 given
    cases declared : u.declaration? var with
    | none =>
      rw [value?_of_declaration?_none declared] at reached
      cases reached
    | some v =>
      obtain ⟨-, here⟩ := (formed.value?_eq_some_iff declared).1 reached
      rw [Value.asInt?_eq_some_iff.1 reads, ← DomainTable.int?_eq_some_iff] at here
      exact ⟨_, here, IntDomain.value?_interval number⟩
  · rintro ⟨d, here, only⟩
    obtain rfl := IntDomain.value?_eq_some_iff_interval.1 only
    rw [DomainTable.int?_eq_some_iff] at here
    obtain ⟨v, declared, -⟩ := formed.declared here
    have decided : u.domains.Decided var :=
      ⟨_, here, by simp [Domain.isSingleton, IntDomain.isSingleton, only]⟩
    obtain ⟨value, given⟩ := (formed.decided_iff declared).1 decided
    have own := ((formed.value?_eq_some_iff declared).1 given).2
    rw [Assignment.int?, given, Option.bind_some, Value.asInt?_eq_some_iff]
    exact Option.some.inj (own.symm.trans here)

/-- A decided variable that is not a set has an integer. -/
theorem Formed.exists_int?_eq_some (formed : u.Formed) (declared : u.declaration? var = some v)
    (numeric : v.kind ≠ .set) (decided : u.domains.Decided var) :
    ∃ number, Assignment.int? u.value? var = some number := by
  obtain ⟨value, given⟩ := (formed.decided_iff declared).1 decided
  rw [Assignment.int?, given, Option.bind_some]
  exact Value.exists_asInt?_of_takes ((formed.value?_eq_some_iff declared).1 given).1 numeric

end Store

/-! ## Tables that show an assignment -/

namespace DomainTable

/-- Every variable of the table has the domain of its value in an assignment, and there is a
value only where there is a variable. -/
def Shows (t : DomainTable) (assignment : Assignment) : Prop :=
  ∀ var, t.get? var = (assignment var).map Value.domain

/-- The table with the domains of some values in place of its own. -/
def shown (t : DomainTable) (assignment : Assignment) : DomainTable :=
  { t with domains := t.domains.mapIdx fun i d => ((assignment ⟨i⟩).map Value.domain).getD d }

theorem get?_shown (t : DomainTable) (assignment : Assignment) (var : VarId) :
    (t.shown assignment).get? var =
      (t.get? var).map fun d => ((assignment var).map Value.domain).getD d := by
  simp [shown, get?]

/-- A table that shows an assignment has everything decided. -/
theorem Shows.decided {t : DomainTable} {assignment : Assignment} (shows_ : t.Shows assignment)
    {var : VarId} {d : Domain} (here : t.get? var = some d) : t.Decided var := by
  have valued := here
  rw [shows_ var] at valued
  obtain ⟨value, -, rfl⟩ := Option.map_eq_some_iff.1 valued
  exact ⟨_, here, value.isSingleton_domain⟩

/-- What a table shows, its integers mirror. -/
theorem Shows.mirrors {t : DomainTable} {assignment : Assignment} (shows_ : t.Shows assignment) :
    t.Mirrors assignment := by
  have int (var : VarId) (number : Int) : assignment.int? var = some number ↔
      t.int? var = some (IntDomain.interval number number) := by
    rw [int?_eq_some_iff, shows_ var, Assignment.int?]
    cases assignment var with
    | none => simp
    | some value => simp [Value.asInt?_eq_some_iff]
  have given (var : VarId) (d : IntDomain) (here : t.int? var = some d) :
      ∃ number, assignment.int? var = some number := by
    rw [int?_eq_some_iff, shows_ var] at here
    obtain ⟨value, own, equal⟩ := Option.map_eq_some_iff.1 here
    rw [Assignment.int?, own]
    exact Value.exists_asInt?_eq_some equal
  have decides (var : VarId) (number : Int) :
      assignment.int? var = some number ↔ t.Decides var number := by
    constructor
    · intro own
      exact ⟨_, (int var number).1 own, IntDomain.value?_interval number⟩
    · rintro ⟨d, here, only⟩
      obtain ⟨other, own⟩ := given var d here
      have there := (int var other).1 own
      obtain rfl := Option.some.inj (here.symm.trans there)
      rw [IntDomain.value?_interval] at only
      rwa [← Option.some.inj only]
  refine ⟨decides, fun var d here => ?_⟩
  obtain ⟨number, own⟩ := given var d here
  exact ⟨number, (decides var number).1 own⟩

end DomainTable

namespace Store

variable {s u : Store} {assignment : Assignment}

/-- A store in which everything is decided shows its values. -/
theorem Formed.shows (formed : u.Formed)
    (decided : ∀ var, var.index < u.size → u.domains.Decided var) :
    u.domains.Shows u.value? := by
  intro var
  cases declared : u.declaration? var with
  | none =>
    have outside : ¬ var.index < u.size := by
      intro inside
      rw [declaration?, Array.getElem?_eq_none_iff] at declared
      exact Nat.not_lt.2 declared inside
    rw [value?_of_declaration?_none declared, Option.map_none, ← Option.not_isSome_iff_eq_none,
      DomainTable.get?_isSome_iff, formed.sizes]
    exact outside
  | some v =>
    have inside : var.index < u.size := (Array.getElem?_eq_some_iff.1 declared).1
    obtain ⟨value, given⟩ := (formed.decided_iff declared).1 (decided var inside)
    rw [given, Option.map_some]
    exact ((formed.value?_eq_some_iff declared).1 given).2

/-- A store further down that is stable and has everything decided has come to a satisfying
assignment. -/
theorem Formed.satisfies (formed : s.Formed) (formed' : u.Formed)
    (declarations : u.declarations = s.declarations) (within : u.domains.Within s.domains)
    (stable : u.domains.Stable s.rules)
    (decided : ∀ var, var.index < u.size → u.domains.Decided var) : s.Satisfies u.value? := by
  have shown := formed'.shows decided
  have same (var : VarId) : u.declaration? var = s.declaration? var := by
    simp [declaration?, declarations]
  refine ⟨fun var => ?_, fun imposed member => ?_⟩
  · unfold AdmitsAt
    cases declared : s.declaration? var with
    | none => exact value?_of_declaration?_none ((same var).trans declared)
    | some v =>
      obtain ⟨d, here, -⟩ := formed.exists_domain declared
      obtain ⟨e, there, inner⟩ := within.smaller here
      rw [here]
      have declared' := (same var).trans declared
      have size : var.index < u.size := (Array.getElem?_eq_some_iff.1 declared').1
      obtain ⟨value, given⟩ := (formed'.decided_iff declared').1 (decided var size)
      obtain ⟨takes, own⟩ := (formed'.value?_eq_some_iff declared').1 given
      obtain rfl := Option.some.inj (there.symm.trans own)
      exact ⟨value, given, Value.admits_iff.2 ⟨takes, inner⟩⟩
  · apply (Constraint.stable_iff_holds shown.mirrors formed'.sound imposed.constraint).1
    exact stable _ (List.mem_map.2 ⟨imposed, member, rfl⟩)

/-- What a store admits at a variable: no value where there is no variable, and otherwise a
value of its kind whose domain lies within that of the variable. -/
theorem Formed.admitsAt_cases (formed : s.Formed) {var : VarId}
    (admits : s.AdmitsAt assignment var) :
    (s.domains.get? var = none ∧ assignment var = none) ∨
      ∃ v d value, s.declaration? var = some v ∧ s.domains.get? var = some d ∧
        assignment var = some value ∧ v.kind.Takes value ∧ value.domain.Within d := by
  unfold AdmitsAt at admits
  cases here : s.domains.get? var with
  | none =>
    rw [here] at admits
    cases declared : s.declaration? var <;> exact .inl ⟨rfl, by simpa [declared] using admits⟩
  | some d =>
    obtain ⟨v, declared, -⟩ := formed.declared here
    simp only [declared, here] at admits
    obtain ⟨value, given, admits⟩ := admits
    obtain ⟨takes, inner⟩ := Value.admits_iff.1 admits
    exact .inr ⟨v, d, value, declared, rfl, given, takes, inner⟩

/-- Where a table below a store shows an assignment, the declared variables are decided. -/
theorem Formed.decided_of_shows {p : DomainTable} (formed : s.Formed)
    (shows_ : p.Shows assignment) (within : p.Within s.domains)
    (declared : s.declaration? var = some v) : p.Decided var := by
  obtain ⟨d, here, -⟩ := formed.exists_domain declared
  obtain ⟨e, there, -⟩ := within.smaller here
  exact shows_.decided there

/-- An assignment that satisfies a store is shown by a settled table below it. -/
theorem Satisfies.exists_settled (satisfies : s.Satisfies assignment) (formed : s.Formed) :
    ∃ p : DomainTable, p.Shows assignment ∧ p.Settled s.rules ∧ p.Within s.domains := by
  have shows_ : (s.domains.shown assignment).Shows assignment := by
    intro var
    rw [DomainTable.get?_shown]
    rcases formed.admitsAt_cases (satisfies.admits var) with
      ⟨here, given⟩ | ⟨v, d, value, -, here, given, -, -⟩
    · rw [here, given]
      rfl
    · rw [here, given]
      rfl
  have within : (s.domains.shown assignment).Within s.domains := by
    intro var
    rw [shows_ var]
    rcases formed.admitsAt_cases (satisfies.admits var) with
      ⟨here, given⟩ | ⟨v, d, value, -, here, given, -, inner⟩
    · rw [here, given]
      exact .none
    · rw [here, given]
      exact .some inner
  have canonical : (s.domains.shown assignment).Canonical := by
    intro var e there
    rw [shows_ var] at there
    obtain ⟨value, given, rfl⟩ := Option.map_eq_some_iff.1 there
    rcases formed.admitsAt_cases (satisfies.admits var) with
      ⟨-, none⟩ | ⟨v, d, other, -, -, given', takes, -⟩
    · cases none.symm.trans given
    · obtain rfl := Option.some.inj (given.symm.trans given')
      exact Value.canonical_domain takes
  have filled : (s.domains.shown assignment).Filled := by
    intro var e there
    rw [shows_ var] at there
    obtain ⟨value, -, rfl⟩ := Option.map_eq_some_iff.1 there
    exact value.hasValue_domain
  have sound : (s.domains.shown assignment).Sound :=
    ⟨canonical, within.inRange formed.sound.inRange⟩
  refine ⟨_, shows_, ⟨sound, filled, fun c member => ?_⟩, within⟩
  obtain ⟨imposed, inside, rfl⟩ := List.mem_map.1 member
  exact (Constraint.stable_iff_holds shows_.mirrors sound _).2 (satisfies.holds imposed inside)

/-- Propagation does not fail in a store that can be satisfied. -/
theorem Satisfies.consistent (satisfies : s.Satisfies assignment) (formed : s.Formed) :
    s.consistency.1 = true := by
  obtain ⟨p, -, settled, within⟩ := satisfies.exists_settled formed
  obtain ⟨u, run, -⟩ := settled.propagateAll ⟨formed.sound, within⟩
  exact congrArg Prod.fst run

/-- A store in which everything is decided is satisfied by what it has come to exactly if
propagation succeeds. -/
theorem Formed.satisfies_value?_iff (formed : s.Formed)
    (decided : ∀ var, var.index < s.size → s.domains.Decided var) :
    s.Satisfies s.value? ↔ s.consistency.1 = true := by
  refine ⟨fun satisfies => satisfies.consistent formed, fun consistent => ?_⟩
  have run : s.domains.propagateAll s.rules = (true, s.consistency.2.domains) :=
    Prod.ext consistent rfl
  obtain ⟨narrows, stable⟩ := DomainTable.narrows_of_propagateAll formed.canonical run
  have formed' := formed.consistency
  -- Propagation has nothing to narrow, so the store after it has come to the same values.
  have single (var : VarId) (d : Domain) (here : s.domains.get? var = some d) :
      d.isSingleton = true := by
    have inside : var.index < s.size := formed.sizes ▸ (Array.getElem?_eq_some_iff.1 here).1
    obtain ⟨e, there, single⟩ := decided var inside
    exact Option.some.inj (there.symm.trans here) ▸ single
  have filled : s.domains.Filled := fun var d here =>
    .of_isSingleton (formed.canonical var d here) (single var d here)
  have same (var : VarId) : s.consistency.2.domains.get? var = s.domains.get? var := by
    cases here : s.domains.get? var with
    | some d =>
      exact narrows.within.get?_eq_of_isSingleton formed'.canonical (narrows.filled filled)
        formed.canonical here (single var d here)
    | none =>
      by_contra there
      obtain ⟨e, there⟩ := Option.ne_none_iff_exists'.1 there
      obtain ⟨d, found, -⟩ := narrows.within.larger there
      cases here.symm.trans found
  have values : s.consistency.2.value? = s.value? := by
    funext var
    unfold value?
    rw [same]
    rfl
  rw [← values]
  exact formed.satisfies formed' rfl narrows.within stable fun var inside => by
    obtain ⟨d, here, single⟩ := decided var inside
    exact ⟨d, (same var).trans here, single⟩

end Store

end StagedSearch
