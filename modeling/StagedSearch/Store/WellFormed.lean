/-
# Well-formed stores

What every operation of a store keeps: the tables belong to the same variables, each domain
suits the kind of its variable and is canonical, constraints speak of declared variables,
and they are listed in the order of the levels that they belong to.
-/

import StagedSearch.Domain.Canonical
import StagedSearch.Store.Basic

namespace StagedSearch

/-- The values that a variable of a kind may have at all. -/
def VarKind.Suits : VarKind → Domain → Prop
  | .int, .int d => d.InRange
  | .bool, .int d => ∀ value ∈ d, value = 0 ∨ value = 1
  | .set, .set _ => True
  | _, _ => False

/-- The table has a stamp per domain, and its domains are made of canonical lists. That a
domain still has values is not part of this: a failing operation may have emptied it. -/
structure DomainTable.WellFormed (t : DomainTable) : Prop where
  stamps : t.savedAt.size = t.domains.size
  canonical : ∀ d ∈ t.domains, d.Canonical

/-- What holds of a store whatever was done to it. -/
structure Store.WellFormed (s : Store) : Prop where
  domains : s.domains.WellFormed
  sizes : s.domains.size = s.size
  kinds : ∀ var v d, s.declaration? var = some v → s.domains.get? var = some d → v.kind.Suits d
  scopes : ∀ imposed ∈ s.constraints, ∀ var ∈ imposed.constraint.scope, var.index < s.size
  ordered : (s.constraints.map Imposed.level).Pairwise (· ≤ ·)
  levels : ∀ imposed ∈ s.constraints, imposed.level ≤ s.level

/-- Nothing is wrong with nothing. -/
theorem Store.wellFormed_empty : Store.empty.WellFormed where
  domains := ⟨rfl, by simp [empty, DomainTable.empty]⟩
  sizes := rfl
  kinds := by simp [empty, declaration?]
  scopes := by simp [empty]
  ordered := by simp [empty]
  levels := by simp [empty]

end StagedSearch
