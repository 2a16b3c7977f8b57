/-
# Satisfying assignments

Which assignments a store leaves: those that give every variable a value of its domain and
meet every imposed constraint. This is said without propagation and without search, so that
both can be measured by it.

An assignment gives no value to what is not a variable of the store. Two assignments that
agree on the variables are therefore equal, and assignments can be counted.
-/

import StagedSearch.Domain.Canonical
import StagedSearch.Store.Basic

namespace StagedSearch

/-- Whether a value is of a kind and lies in a domain. A boolean lies in a domain of integers
as 0 or 1. -/
def VarKind.Admits : VarKind → Domain → Value → Prop
  | .int, .int d, .int value => value ∈ d
  | .bool, .int d, .bool value => (if value then 1 else 0) ∈ d
  | .set, .set d, .set elements => d.Admits elements
  | _, _, _ => False

namespace Store

/-- Whether an assignment gives a variable a value of its kind and domain. What the store
does not declare gets no value. -/
def AdmitsAt (s : Store) (assignment : Assignment) (var : VarId) : Prop :=
  match s.declaration? var, s.domains.get? var with
  | some v, some d => ∃ value, assignment var = some value ∧ v.kind.Admits d value
  | _, _ => assignment var = none

/-- Every variable gets a value of its kind and domain. -/
def Admits (s : Store) (assignment : Assignment) : Prop :=
  ∀ var, s.AdmitsAt assignment var

/-- Every variable gets a value of its domain, and every imposed constraint holds. -/
structure Satisfies (s : Store) (assignment : Assignment) : Prop where
  admits : s.Admits assignment
  holds : ∀ imposed ∈ s.constraints, imposed.constraint.Holds assignment

def Satisfiable (s : Store) : Prop := ∃ assignment, s.Satisfies assignment

def Attains (s : Store) (var : VarId) (value : Int) : Prop :=
  ∃ assignment, s.Satisfies assignment ∧ assignment.int? var = some value

/-- The assignment that a store has come to: the values of its decided variables. -/
def assignment (s : Store) : Assignment := s.value?

/-- The levels at which constraints were imposed do not matter. -/
theorem satisfies_iff_rules {s : Store} {assignment : Assignment} :
    s.Satisfies assignment ↔ s.Admits assignment ∧ ∀ c ∈ s.rules, c.Holds assignment := by
  rw [rules, List.forall_mem_map]
  constructor
  · rintro ⟨admits, holds⟩
    exact ⟨admits, holds⟩
  · rintro ⟨admits, holds⟩
    exact ⟨admits, holds⟩

/-- One more constraint is one more demand. -/
theorem satisfies_addConstraint {s : Store} {c : Constraint} {assignment : Assignment} :
    (s.addConstraint c).Satisfies assignment ↔
      s.Satisfies assignment ∧ c.Holds assignment := by
  constructor
  · rintro ⟨admits, holds⟩
    refine ⟨⟨admits, fun imposed member => ?_⟩, ?_⟩
    · exact holds imposed (List.mem_append_left _ member)
    · exact holds ⟨s.level, c⟩ (by simp [addConstraint])
  · rintro ⟨⟨admits, holds⟩, last⟩
    refine ⟨admits, fun imposed member => ?_⟩
    rcases List.mem_append.1 member with member | member
    · exact holds imposed member
    · cases List.mem_singleton.1 member
      exact last

end Store

end StagedSearch
