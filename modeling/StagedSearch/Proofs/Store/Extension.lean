/-
# Assignments of a store with one more variable

Declaring a variable adds a value of its domain to every satisfying assignment and restricts
them in no other way. A constraint that was there before does not see the new variable.
-/

import StagedSearch.Proofs.Store.Reachable
import StagedSearch.Store.Satisfaction

namespace StagedSearch

/-- A constraint reads no variable outside of its scope. -/
theorem Constraint.holds_congr {c : Constraint} {first second : Assignment}
    (same : ∀ var ∈ c.scope, first var = second var) : c.Holds first ↔ c.Holds second := by
  have places : c.scope.map first.int? = c.scope.map second.int? :=
    List.map_congr_left fun var member => by rw [Assignment.int?, same var member]; rfl
  unfold Holds
  rw [places]

namespace Store

variable {s : Store} {assignment : Assignment} {name : String} {kind : VarKind} {d : Domain}
  {var : VarId}

/-- An assignment with its values of the variables of a store only. -/
def restrict (s : Store) (assignment : Assignment) : Assignment := fun var =>
  if var.index < s.size then assignment var else none

theorem restrict_of_lt (inside : var.index < s.size) : s.restrict assignment var = assignment var :=
  if_pos inside

theorem restrict_of_le (outside : s.size ≤ var.index) : s.restrict assignment var = none :=
  if_neg (Nat.not_lt.2 outside)

theorem declaration?_of_le (outside : s.size ≤ var.index) : s.declaration? var = none :=
  Array.getElem?_eq_none outside

/-- What satisfies a store has no values elsewhere. -/
theorem Satisfies.eq_none (satisfies : s.Satisfies assignment) (outside : s.size ≤ var.index) :
    assignment var = none := by
  have admits := satisfies.admits var
  unfold AdmitsAt at admits
  rwa [declaration?_of_le outside] at admits

theorem Satisfies.restrict_eq (satisfies : s.Satisfies assignment) :
    s.restrict assignment = assignment := by
  funext var
  rcases Nat.lt_or_ge var.index s.size with inside | outside
  · exact restrict_of_lt inside
  · rw [restrict_of_le outside, satisfies.eq_none outside]

/-- Another value of a variable that is not there is restricted away. -/
theorem Satisfies.restrict_update (satisfies : s.Satisfies assignment) (value : Option Value) :
    s.restrict (Function.update assignment ⟨s.size⟩ value) = assignment := by
  funext var
  rcases Nat.lt_or_ge var.index s.size with inside | outside
  · rw [restrict_of_lt inside]
    exact Function.update_of_ne (fun same => Nat.ne_of_lt inside (congrArg VarId.index same)) ..
  · rw [restrict_of_le outside, satisfies.eq_none outside]

/-- Outside of its variables a store admits a restricted assignment. -/
theorem admitsAt_restrict_of_le (outside : s.size ≤ var.index) :
    s.AdmitsAt (s.restrict assignment) var := by
  unfold AdmitsAt
  rw [declaration?_of_le outside]
  exact restrict_of_le outside

theorem declaration?_declare (var : VarId) :
    (s.declare name kind d).2.declaration? var =
      if var.index = s.size then some ⟨name, kind⟩ else s.declaration? var :=
  Array.getElem?_push

theorem get?_declare (sizes : s.domains.size = s.size) (var : VarId) :
    (s.declare name kind d).2.domains.get? var =
      if var.index = s.size then some d else s.domains.get? var := by
  rw [← sizes]
  exact Array.getElem?_push

/-- At the variables that were there before nothing changes. -/
theorem admitsAt_declare_of_lt (sizes : s.domains.size = s.size) (inside : var.index < s.size) :
    (s.declare name kind d).2.AdmitsAt assignment var ↔ s.AdmitsAt (s.restrict assignment) var := by
  unfold AdmitsAt
  rw [declaration?_declare, get?_declare sizes, if_neg (Nat.ne_of_lt inside),
    if_neg (Nat.ne_of_lt inside), restrict_of_lt inside]

/-- The new variable gets a value of its domain. -/
theorem admitsAt_declare_self (sizes : s.domains.size = s.size) :
    (s.declare name kind d).2.AdmitsAt assignment ⟨s.size⟩ ↔
      ∃ value, assignment ⟨s.size⟩ = some value ∧ kind.Admits d value := by
  unfold AdmitsAt
  rw [declaration?_declare, get?_declare sizes, if_pos rfl, if_pos rfl]

theorem admitsAt_declare_of_gt (outside : s.size < var.index) :
    (s.declare name kind d).2.AdmitsAt assignment var ↔ assignment var = none := by
  unfold AdmitsAt
  rw [declaration?_declare, if_neg (Nat.ne_of_gt outside), declaration?_of_le outside.le]

/-- What satisfies a store with one more variable satisfies the store, with a value of the new
domain in addition. -/
theorem Formed.satisfies_declare_iff (formed : s.Formed) :
    (s.declare name kind d).2.Satisfies assignment ↔
      s.Satisfies (s.restrict assignment) ∧
        (∃ value, assignment ⟨s.size⟩ = some value ∧ kind.Admits d value) ∧
        ∀ var : VarId, s.size < var.index → assignment var = none := by
  have sizes := formed.sizes
  have holds_iff (imposed : Imposed) (member : imposed ∈ s.constraints) :
      imposed.constraint.Holds (s.restrict assignment) ↔ imposed.constraint.Holds assignment :=
    Constraint.holds_congr fun var inside =>
      restrict_of_lt (formed.scopes imposed member var inside)
  constructor
  · rintro ⟨admits, holds⟩
    refine ⟨⟨fun var => ?_, fun imposed member => ?_⟩, ?_, fun var outside => ?_⟩
    · rcases Nat.lt_or_ge var.index s.size with inside | outside
      · exact (admitsAt_declare_of_lt sizes inside).1 (admits var)
      · exact admitsAt_restrict_of_le outside
    · exact (holds_iff imposed member).2 (holds imposed member)
    · exact (admitsAt_declare_self sizes).1 (admits _)
    · exact (admitsAt_declare_of_gt outside).1 (admits var)
  · rintro ⟨satisfies, own, elsewhere⟩
    refine ⟨fun var => ?_, fun imposed member => ?_⟩
    · rcases Nat.lt_trichotomy var.index s.size with inside | same | outside
      · exact (admitsAt_declare_of_lt sizes inside).2 (satisfies.admits var)
      · obtain rfl : var = ⟨s.size⟩ := by
          cases var
          exact congrArg VarId.mk same
        exact (admitsAt_declare_self sizes).2 own
      · exact (admitsAt_declare_of_gt outside).2 (elsewhere var outside)
    · exact (holds_iff imposed member).1 (satisfies.holds imposed member)

end Store

end StagedSearch
