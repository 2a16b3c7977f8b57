/-
# The store that is optimized on

An optimization searches a store whose satisfying assignments extend those of the given one
(`Extends`), and whose bound ranks the costs (`Ranks`); the rank is to be as low as possible.
When minimizing the store is the given one and the bound is the cost. When maximizing there is
one more variable, and the constraint that it is the negated cost decides it as soon as the cost
is decided, although no node labels it.
-/

import StagedSearch.Proofs.Store.Extension
import StagedSearch.Proofs.Store.Values
import StagedSearch.Proofs.Tree.Wiring

namespace StagedSearch

namespace Store

variable {s u : Store} {assignment : Assignment} {cost var : VarId} {v : Variable}
  {name : String} {low high : Int} {d : IntDomain}

/-- Whether the assignments that satisfy a store extend those that satisfy another one, to
variables that are decided with the variables of the other. -/
structure Extends (s s' : Store) : Prop where
  restricted : ∀ assignment, s'.Satisfies assignment → s.Satisfies (s.restrict assignment)
  extended : ∀ assignment, s.Satisfies assignment →
    ∃ longer, s'.Satisfies longer ∧ s.restrict longer = assignment
  decided : ∀ u : Store, u.Formed → u.domains.Stable s'.rules →
    (∀ var, var.index < s.size → u.domains.Decided var) →
    ∀ var, var.index < s'.size → u.domains.Decided var

/-- Whether a bound ranks the costs that another store attains, and has the rank of the cost
where that is decided. The cost need not be a number, and need not be there at all. -/
structure Ranks (s : Store) (cost : VarId) (s' : Store) (bound : VarId) (rank : Int → Int) :
    Prop where
  attained : ∀ value, s.Attains cost value → s'.Attains bound (rank value)
  reached : ∀ u : Store, u.Formed → u.domains.Stable s'.rules → ∀ value,
    u.domains.Decides cost value → SearchState.boundValue? u (some bound) = some (rank value)

theorem Extends.satisfiable_iff {s' : Store} (extends_ : s.Extends s') :
    s'.Satisfiable ↔ s.Satisfiable := by
  constructor
  · rintro ⟨assignment, satisfies⟩
    exact ⟨_, extends_.restricted assignment satisfies⟩
  · rintro ⟨assignment, satisfies⟩
    obtain ⟨longer, satisfies', -⟩ := extends_.extended assignment satisfies
    exact ⟨longer, satisfies'⟩

theorem boundValue?_of_decides {value : Int} (decides : u.domains.Decides var value) :
    SearchState.boundValue? u (some var) = some value := by
  obtain ⟨d, here, only⟩ := decides
  simp [SearchState.boundValue?, here, only]

/-! ## The store itself -/

theorem extends_self (s : Store) : s.Extends s where
  restricted _ satisfies := satisfies.restrict_eq.symm ▸ satisfies
  extended assignment satisfies := ⟨assignment, satisfies, satisfies.restrict_eq⟩
  decided _ _ _ decided := decided

theorem ranks_self (s : Store) (cost : VarId) : s.Ranks cost s cost id where
  attained _ attained := attained
  reached _ _ _ _ decides := boundValue?_of_decides decides

/-! ## The negated cost -/

/-- A number has an integer in every satisfying assignment. -/
theorem Satisfies.exists_int? (satisfies : s.Satisfies assignment) (formed : s.Formed)
    (declared : s.declaration? var = some v) (numeric : v.kind ≠ .set) :
    ∃ value, assignment.int? var = some value := by
  obtain ⟨d, here, -⟩ := formed.exists_domain declared
  rcases formed.admitsAt_cases (satisfies.admits var) with
    ⟨none, -⟩ | ⟨v', d', value, declared', -, given, takes, -⟩
  · cases here.symm.trans none
  · obtain rfl := Option.some.inj (declared.symm.trans declared')
    unfold Assignment.int?
    rw [given, Option.bind_some]
    exact Value.exists_asInt?_of_takes takes numeric

/-- The integer that a satisfying assignment gives a variable lies in its domain. -/
theorem Satisfies.mem_of_int? (satisfies : s.Satisfies assignment) (formed : s.Formed)
    (here : s.domains.int? var = some d) {value : Int}
    (given : assignment.int? var = some value) : value ∈ d := by
  obtain ⟨p, shows_, settled, within⟩ := satisfies.exists_settled formed
  have holds := (shows_.mirrors.holds_iff settled.sound.canonical).2 given
  obtain ⟨e, there, inside⟩ := within.holds holds
  obtain rfl := Option.some.inj (here.symm.trans there)
  exact inside

/-- Where a variable is the negated value of a decided one, it is decided as well. -/
theorem decides_of_negation (canonical : u.domains.Canonical) {bound : VarId} {value : Int}
    (stable : (Constraint.negation bound cost).Stable u.domains)
    (decides : u.domains.Decides cost value) : u.domains.Decides bound (-value) := by
  obtain ⟨low, high, _, _, spans, -, -, -, exact_⟩ := stable
  obtain ⟨-, rfl, rfl⟩ := exact_ value decides
  obtain ⟨d, here, -, -⟩ := id spans
  refine ⟨d, here, (canonical.int? here).value?_eq_some_iff.2 fun other => ?_⟩
  constructor
  · intro inside
    obtain ⟨above, below⟩ := spans.bounds canonical ⟨d, here, inside⟩
    exact le_antisymm below above
  · rintro rfl
    obtain ⟨e, there, inside⟩ := (spans.holds canonical).1
    obtain rfl := Option.some.inj (here.symm.trans there)
    exact inside

theorem decided_of_negation (canonical : u.domains.Canonical) {bound : VarId}
    (stable : (Constraint.negation bound cost).Stable u.domains)
    (decided : u.domains.Decided cost) : u.domains.Decided bound := by
  obtain ⟨low, high, _, _, -, spans, -, -, -⟩ := id stable
  obtain ⟨e, there, single⟩ := decided
  obtain ⟨f, found, -, -⟩ := spans
  obtain rfl := Option.some.inj (there.symm.trans (DomainTable.int?_eq_some_iff.1 found))
  obtain ⟨value, only⟩ := Option.isSome_iff_exists.1 (show f.value?.isSome = true from single)
  obtain ⟨d, here, negated⟩ := decides_of_negation canonical stable ⟨f, found, only⟩
  exact ⟨.int d, DomainTable.int?_eq_some_iff.1 here, Option.isSome_of_eq_some negated⟩

/-- The negated cost is among the rules of the store that has it. -/
theorem negation_mem_rules :
    Constraint.negation ⟨s.size⟩ cost ∈ (s.withNegated cost name low high).rules :=
  List.mem_map.2 ⟨_, List.mem_append_right _ (List.mem_singleton.2 rfl), rfl⟩

theorem satisfies_withNegated_iff (formed : s.Formed) :
    (s.withNegated cost name low high).Satisfies assignment ↔
      (s.Satisfies (s.restrict assignment) ∧
        (∃ value, assignment ⟨s.size⟩ = some value ∧
          VarKind.int.Admits (.int (IntDomain.interval (-high) (-low))) value) ∧
        ∀ var : VarId, s.size < var.index → assignment var = none) ∧
      (Constraint.negation ⟨s.size⟩ cost).Holds assignment :=
  satisfies_addConstraint.trans (and_congr_left' formed.satisfies_declare_iff)

/-- An assignment can be extended by the negated value of the cost. -/
theorem Satisfies.withNegated (satisfies : s.Satisfies assignment) (formed : s.Formed)
    (inside : cost.index < s.size) (here : s.domains.int? cost = some d)
    (least : d.min? = some low) (greatest : d.max? = some high) {value : Int}
    (given : assignment.int? cost = some value) :
    (s.withNegated cost name low high).Satisfies
      (Function.update assignment ⟨s.size⟩ (some (.int (-value)))) := by
  have canonical := formed.canonical.int? here
  have member := satisfies.mem_of_int? formed here given
  have above := (canonical.min?_eq_some_iff.1 least).2 value member
  have below := (canonical.max?_eq_some_iff.1 greatest).2 value member
  have other (var : VarId) (different : var.index ≠ s.size) :
      Function.update assignment ⟨s.size⟩ (some (.int (-value))) var = assignment var :=
    Function.update_of_ne (fun same => different (congrArg VarId.index same)) _ _
  have own : Function.update assignment ⟨s.size⟩ (some (.int (-value))) ⟨s.size⟩ =
      some (.int (-value)) := Function.update_self ..
  refine (satisfies_withNegated_iff formed).2 ⟨⟨?_, ⟨_, own, ?_⟩, ?_⟩, ?_⟩
  · rw [satisfies.restrict_update (some (.int (-value)))]
    exact satisfies
  · apply IntDomain.mem_interval.2
    omega
  · intro var outside
    rw [other var (Nat.ne_of_gt outside), satisfies.eq_none outside.le]
  · refine Constraint.holds_negation_iff.2 ⟨-value, value, ?_, ?_, by omega⟩
    · rw [Assignment.int?, own]
      rfl
    · rw [Assignment.int?, other cost (Nat.ne_of_lt inside)]
      exact given

theorem Formed.extends_withNegated (formed : s.Formed) (inside : cost.index < s.size)
    (here : s.domains.int? cost = some d) (least : d.min? = some low)
    (greatest : d.max? = some high) : s.Extends (s.withNegated cost name low high) where
  restricted assignment satisfies := ((satisfies_withNegated_iff formed).1 satisfies).1.1
  extended assignment satisfies := by
    obtain ⟨v, declared, numeric⟩ := formed.exists_numeric here
    obtain ⟨value, given⟩ := satisfies.exists_int? formed declared numeric
    exact ⟨_, satisfies.withNegated formed inside here least greatest given,
      satisfies.restrict_update (some (.int (-value)))⟩
  decided u formed' stable decided var below := by
    rcases Nat.lt_or_ge var.index s.size with before | after
    · exact decided var before
    · have size : (s.withNegated cost name low high).size = s.size + 1 := Array.size_push _
      obtain rfl : var = ⟨s.size⟩ := by
        cases var
        simp only at after below
        congr 1
        omega
      exact decided_of_negation formed'.canonical (stable _ negation_mem_rules)
        (decided cost inside)

theorem Formed.ranks_withNegated (formed : s.Formed) (inside : cost.index < s.size)
    (here : s.domains.int? cost = some d) (least : d.min? = some low)
    (greatest : d.max? = some high) :
    s.Ranks cost (s.withNegated cost name low high) ⟨s.size⟩ (- ·) where
  attained value attained := by
    obtain ⟨assignment, satisfies, given⟩ := attained
    refine ⟨_, satisfies.withNegated formed inside here least greatest given, ?_⟩
    rw [Assignment.int?, Function.update_self]
    rfl
  reached u formed' stable value decides :=
    boundValue?_of_decides
      (decides_of_negation formed'.canonical (stable _ negation_mem_rules) decides)

end Store

namespace SearchSpec

variable {spec : SearchSpec} {s s' : Store} {objective : Option Objective}

/-- The store that is wired extends the given one. -/
theorem extends_of_wireCost (formed : s.Formed) (wired : spec.wireCost s = .ok (objective, s')) :
    s.Extends s' := by
  rcases wireCost_cases wired with
    ⟨-, -, rfl⟩ | ⟨cost, -, -, -, rfl⟩ |
    ⟨cost, v, d, low, high, -, -, declared, here, least, greatest, -, -, -, rfl⟩
  · exact Store.extends_self s'
  · exact Store.extends_self s'
  · exact formed.extends_withNegated (Array.getElem?_eq_some_iff.1 declared).1 here least greatest

/-- Variables that were there before have the domains that they had. -/
theorem get?_of_wireCost (formed : s.Formed) (wired : spec.wireCost s = .ok (objective, s'))
    {var : VarId} (inside : var.index < s.size) : s'.domains.get? var = s.domains.get? var := by
  rcases wireCost_cases wired with
    ⟨-, -, rfl⟩ | ⟨cost, -, -, -, rfl⟩ |
    ⟨cost, v, d, low, high, -, -, -, -, -, -, -, -, -, rfl⟩
  · rfl
  · rfl
  · show (s.declare ("-" ++ v.name) .int (.int (.interval (-high) (-low)))).2.domains.get? var = _
    rw [Store.get?_declare formed.sizes, if_neg (Nat.ne_of_lt inside)]

end SearchSpec

end StagedSearch
