/-
# The order of domain tables

One table lies within another when every domain does. Stamps and trail play no part in
that: they say how to go back, not what is still possible. Between canonical tables the
order is antisymmetric on the domains.
-/

import StagedSearch.Proofs.Domain.Order
import StagedSearch.Store.DomainTable
import StagedSearch.Store.WellFormed

namespace StagedSearch

namespace DomainTable

def Canonical (t : DomainTable) : Prop := ∀ var d, t.get? var = some d → d.Canonical

/-- Every domain still admits something. -/
def Filled (t : DomainTable) : Prop := ∀ var d, t.get? var = some d → d.HasValue

/-- The tables have the same variables, and each domain of the first lies within that of the
second. -/
def Within (t u : DomainTable) : Prop :=
  ∀ var, Option.Rel Domain.Within (t.get? var) (u.get? var)

/-- Whether a variable can take an integer. -/
def Holds (t : DomainTable) (var : VarId) (value : Int) : Prop :=
  ∃ d, t.int? var = some d ∧ value ∈ d

/-- Whether an integer is the only one that a variable can take. -/
def Decides (t : DomainTable) (var : VarId) (value : Int) : Prop :=
  ∃ d, t.int? var = some d ∧ d.value? = some value

/-- The least and the greatest integer that a variable can take. -/
def Spans (t : DomainTable) (var : VarId) (low high : Int) : Prop :=
  ∃ d, t.int? var = some d ∧ d.min? = some low ∧ d.max? = some high

theorem int?_eq_some_iff {t : DomainTable} {var : VarId} {d : IntDomain} :
    t.int? var = some d ↔ t.get? var = some (.int d) := by
  unfold int?
  cases t.get? var with
  | none => simp
  | some e => cases e <;> simp [Domain.asInt?]

theorem set?_eq_some_iff {t : DomainTable} {var : VarId} {d : SetDomain} :
    t.set? var = some d ↔ t.get? var = some (.set d) := by
  unfold set?
  cases t.get? var with
  | none => simp
  | some e => cases e <;> simp [Domain.asSet?]

theorem holds_iff_of_int? {t : DomainTable} {var : VarId} {d : IntDomain}
    (here : t.int? var = some d) {value : Int} : t.Holds var value ↔ value ∈ d := by
  constructor
  · rintro ⟨e, there, inside⟩
    obtain rfl := Option.some.inj (here.symm.trans there)
    exact inside
  · exact fun inside => ⟨d, here, inside⟩

theorem get?_isSome_iff {t : DomainTable} {var : VarId} :
    (t.get? var).isSome ↔ var.index < t.size := by
  simp [get?, size]

/-- Tables with the same domains are told apart by nothing that reads domains. -/
theorem get?_congr {t u : DomainTable} (same : t.domains = u.domains) : t.get? = u.get? := by
  funext var
  simp [get?, same]

theorem domains_eq_of_get? {t u : DomainTable} (same : ∀ var, t.get? var = u.get? var) :
    t.domains = u.domains :=
  Array.ext_getElem? fun i => same ⟨i⟩

theorem Canonical.int? {t : DomainTable} (canonical : t.Canonical) {var : VarId} {d : IntDomain}
    (here : t.int? var = some d) : d.Canonical :=
  canonical var (.int d) (int?_eq_some_iff.1 here)

theorem Canonical.set? {t : DomainTable} (canonical : t.Canonical) {var : VarId} {d : SetDomain}
    (here : t.set? var = some d) : d.Canonical :=
  canonical var (.set d) (set?_eq_some_iff.1 here)

theorem Filled.int? {t : DomainTable} (filled : t.Filled) {var : VarId} {d : IntDomain}
    (here : t.int? var = some d) : d.HasValue :=
  filled var (.int d) (int?_eq_some_iff.1 here)

/-! ## The order -/

theorem Within.refl (t : DomainTable) : t.Within t := by
  intro var
  cases t.get? var with
  | none => exact .none
  | some d => exact .some (Domain.Within.refl d)

theorem Within.trans {t u w : DomainTable} (first : t.Within u) (second : u.Within w) :
    t.Within w := by
  intro var
  have left := first var
  have right := second var
  revert left right
  generalize t.get? var = d, u.get? var = e, w.get? var = f
  rintro (left | _) right
  · cases right with
    | some right => exact .some (left.trans right)
  · cases right
    exact .none

/-- The domain of the smaller table belongs to one of the larger table. -/
theorem Within.larger {t u : DomainTable} (within : t.Within u) {var : VarId} {d : Domain}
    (here : t.get? var = some d) : ∃ e, u.get? var = some e ∧ d.Within e := by
  have related := within var
  rw [here] at related
  cases h : u.get? var with
  | none => rw [h] at related; cases related
  | some e =>
    rw [h] at related
    cases related with
    | some inner => exact ⟨e, rfl, inner⟩

/-- The domain of the larger table belongs to one of the smaller table. -/
theorem Within.smaller {t u : DomainTable} (within : t.Within u) {var : VarId} {e : Domain}
    (here : u.get? var = some e) : ∃ d, t.get? var = some d ∧ d.Within e := by
  have related := within var
  rw [here] at related
  cases h : t.get? var with
  | none => rw [h] at related; cases related
  | some d =>
    rw [h] at related
    cases related with
    | some inner => exact ⟨d, rfl, inner⟩

theorem Within.int? {t u : DomainTable} (within : t.Within u) {var : VarId} {d : IntDomain}
    (here : t.int? var = some d) : ∃ e, u.int? var = some e ∧ ∀ value ∈ d, value ∈ e := by
  obtain ⟨e, there, inner⟩ := within.larger (int?_eq_some_iff.1 here)
  cases e with
  | int e => exact ⟨e, int?_eq_some_iff.2 there, inner⟩
  | set e => exact inner.elim

theorem Within.size_eq {t u : DomainTable} (within : t.Within u) : t.size = u.size := by
  have same (var : VarId) : var.index < t.size ↔ var.index < u.size := by
    rw [← get?_isSome_iff, ← get?_isSome_iff]
    have related := within var
    revert related
    cases t.get? var <;> cases u.get? var <;> intro related <;> cases related <;> simp
  have left := same ⟨t.size⟩
  have right := same ⟨u.size⟩
  simp only [lt_self_iff_false, false_iff, iff_false] at left right
  omega

theorem Within.domains_eq {t u : DomainTable} (left : t.Canonical) (right : u.Canonical)
    (first : t.Within u) (second : u.Within t) : t.domains = u.domains := by
  refine domains_eq_of_get? fun var => ?_
  cases here : t.get? var with
  | none =>
    cases there : u.get? var with
    | none => rfl
    | some e =>
      obtain ⟨d, found, -⟩ := first.smaller there
      rw [here] at found
      cases found
  | some d =>
    obtain ⟨e, there, inner⟩ := first.larger here
    obtain ⟨d', found, outer⟩ := second.larger there
    obtain rfl : d = d' := Option.some.inj (here.symm.trans found)
    rw [there, Domain.Within.antisymm (left _ _ here) (right _ _ there) inner outer]

/-- What lies within a table whose domain of a variable is decided, and still admits
something, has the same domain there. -/
theorem Within.get?_eq_of_isSingleton {t u : DomainTable} (left : t.Canonical)
    (filled : t.Filled) (right : u.Canonical) (within : t.Within u) {var : VarId} {e : Domain}
    (here : u.get? var = some e) (decided : e.isSingleton = true) : t.get? var = some e := by
  obtain ⟨d, there, inner⟩ := within.smaller here
  rw [there, inner.eq_of_isSingleton (left _ _ there) (right _ _ here) (filled _ _ there) decided]

/-! ## Replacing a domain -/

theorem domains_save (t : DomainTable) (var : VarId) : (t.save var).domains = t.domains := by
  unfold save
  split
  · split <;> rfl
  · rfl

theorem domains_replace (t : DomainTable) (var : VarId) (d : Domain) :
    (t.replace var d).domains = t.domains.setIfInBounds var.index d := by
  simp [replace, domains_save]

theorem get?_replace_self {t : DomainTable} {var : VarId} {d : Domain}
    (here : var.index < t.size) : (t.replace var d).get? var = some d := by
  simp only [get?, domains_replace]
  exact Array.getElem?_setIfInBounds_self_of_lt here

theorem get?_replace_of_ne {t : DomainTable} {var other : VarId} {d : Domain}
    (different : other ≠ var) : (t.replace var d).get? other = t.get? other := by
  simp only [get?, domains_replace]
  refine Array.getElem?_setIfInBounds_ne fun equal => different ?_
  cases other
  cases var
  simp_all

@[simp]
theorem size_replace (t : DomainTable) (var : VarId) (d : Domain) :
    (t.replace var d).size = t.size := by
  simp [size, domains_replace]

/-- A domain of the new table is the new one or one that was there. -/
theorem get?_replace_cases {t : DomainTable} {var other : VarId} {d e : Domain}
    (here : (t.replace var d).get? other = some e) :
    (other = var ∧ e = d) ∨ (other ≠ var ∧ t.get? other = some e) := by
  by_cases same : other = var
  · subst same
    have inside : other.index < t.size := by
      have := get?_isSome_iff.1 (Option.isSome_of_eq_some here)
      simpa using this
    rw [get?_replace_self inside] at here
    exact .inl ⟨rfl, (Option.some.inj here).symm⟩
  · rw [get?_replace_of_ne same] at here
    exact .inr ⟨same, here⟩

theorem Canonical.replace {t : DomainTable} (canonical : t.Canonical) {var : VarId} {d : Domain}
    (new : d.Canonical) : (t.replace var d).Canonical := by
  intro other e here
  rcases get?_replace_cases here with ⟨-, rfl⟩ | ⟨-, there⟩
  · exact new
  · exact canonical other e there

theorem Within.replace {t : DomainTable} {var : VarId} {d e : Domain}
    (here : t.get? var = some d) (within : e.Within d) : (t.replace var e).Within t := by
  intro other
  by_cases same : other = var
  · subst same
    rw [get?_replace_self (get?_isSome_iff.1 (Option.isSome_of_eq_some here)), here]
    exact .some within
  · rw [get?_replace_of_ne same]
    exact Within.refl t other

/-- A table below another one stays below what changes in one variable only, if it fits
there. -/
theorem Within.of_elsewhere {p t u : DomainTable} (within : p.Within t) (smaller : u.Within t)
    {var : VarId} (elsewhere : ∀ other, other ≠ var → u.get? other = t.get? other)
    (fits : ∀ d e, p.get? var = some d → u.get? var = some e → d.Within e) : p.Within u := by
  intro other
  by_cases same : other = var
  · subst same
    cases there : u.get? other with
    | none =>
      cases here : p.get? other with
      | none => exact .none
      | some d =>
        obtain ⟨e, found, -⟩ := within.larger here
        obtain ⟨f, found', -⟩ := smaller.smaller found
        rw [there] at found'
        cases found'
    | some e =>
      obtain ⟨f, found, -⟩ := smaller.larger there
      obtain ⟨d, here, -⟩ := within.smaller found
      rw [here]
      exact .some (fits d e here there)
  · rw [elsewhere other same]
    exact within other

/-! ## Adding a domain -/

theorem get?_push (t : DomainTable) (d : Domain) (var : VarId) :
    (t.push d).get? var = if var.index = t.size then some d else t.get? var :=
  Array.getElem?_push

theorem Filled.push {t : DomainTable} (filled : t.Filled) {d : Domain} (value : d.HasValue) :
    (t.push d).Filled := by
  intro var e here
  rw [get?_push] at here
  split at here
  · exact Option.some.inj here ▸ value
  · exact filled var e here

/-- The same domain behind both tables keeps the order. -/
theorem Within.push {t u : DomainTable} (within : t.Within u) (d : Domain) :
    (t.push d).Within (u.push d) := by
  intro var
  rw [get?_push, get?_push, within.size_eq]
  by_cases last : var.index = u.size
  · rw [if_pos last, if_pos last]
    exact .some (.refl d)
  · rw [if_neg last, if_neg last]
    exact within var

/-! ## Weight -/

theorem totalSize_set_lt {α : Type} {size : α → Nat} {list : List α} {i : Nat} {a b : α}
    (here : list[i]? = some a) (smaller : size b < size a) :
    totalSize size (list.set i b) < totalSize size list := by
  induction list generalizing i with
  | nil => simp at here
  | cons c rest ih =>
    cases i with
    | zero =>
      obtain rfl : c = a := by simpa using here
      simpa using smaller
    | succ i =>
      have := ih (i := i) (by simpa using here)
      simpa using this

/-- A smaller domain makes the table lighter. -/
theorem weight_replace_lt {t : DomainTable} {var : VarId} {d e : Domain}
    (here : t.get? var = some d) (smaller : e.weight < d.weight) :
    (t.replace var e).weight < t.weight := by
  unfold weight
  rw [domains_replace, Array.toList_setIfInBounds]
  refine totalSize_set_lt (a := d) ?_ smaller
  simpa [get?] using here

end DomainTable

end StagedSearch
