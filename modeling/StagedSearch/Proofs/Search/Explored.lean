/-
# What a piece of search comes to

A piece of search hands a list of stores to the listener and leaves the store as it was. What
is said of these leaves does not mention how they were found: each lies below the store that
the piece started from, is stable, has the variables of the nodes decided, and is the greatest
stable table with its values; no two of them agree on these variables; and each improves on
the incumbent of its time. Pieces are put together by `Explored.append`.

Whether something was left out is a different question, which is asked separately
(`Covers`): a deadline, a limit or a decorator may leave leaves out, but what is handed over
is as described in any case.
-/

import StagedSearch.Proofs.Search.Attempt

namespace StagedSearch

/-! ## Stores further down -/

namespace Store

/-- A store that narrowing inside further levels leads to. -/
structure Descends (s u : Store) : Prop where
  declarations : u.declarations = s.declarations
  constraints : u.constraints = s.constraints
  formed : u.Formed
  within : u.domains.Within s.domains
  hasValue : ∀ var d e, s.domains.get? var = some d → u.domains.get? var = some e →
    d.HasValue → e.HasValue

variable {s u w : Store}

theorem Descends.refl (formed : s.Formed) : s.Descends s where
  declarations := rfl
  constraints := rfl
  formed := formed
  within := .refl s.domains
  hasValue _ _ _ here there value := Option.some.inj (here.symm.trans there) ▸ value

theorem Descends.trans (first : s.Descends u) (second : u.Descends w) : s.Descends w where
  declarations := second.declarations.trans first.declarations
  constraints := second.constraints.trans first.constraints
  formed := second.formed
  within := second.within.trans first.within
  hasValue var d e here there value := by
    obtain ⟨f, between, -⟩ := second.within.larger there
    exact second.hasValue var f e between there (first.hasValue var d f here between value)

theorem Descends.rules (descends : s.Descends u) : u.rules = s.rules := by
  unfold Store.rules
  rw [descends.constraints]

/-- A decided variable stays as it is. -/
theorem Descends.get?_of_decided (descends : s.Descends u) (formed : s.Formed) {var : VarId}
    {d : Domain} (here : s.domains.get? var = some d) (decided : d.isSingleton = true) :
    u.domains.get? var = some d := by
  obtain ⟨e, there, inner⟩ := descends.within.smaller here
  have canonical := formed.canonical var d here
  rw [there, inner.eq_of_isSingleton (descends.formed.canonical var e there) canonical
    (descends.hasValue var d e here there (.of_isSingleton canonical decided)) decided]

theorem Descends.decided (descends : s.Descends u) (formed : s.Formed) {var : VarId}
    (decided : s.domains.Decided var) : u.domains.Decided var := by
  obtain ⟨d, here, single⟩ := decided
  exact ⟨d, descends.get?_of_decided formed here single, single⟩

theorem Descends.effort_le (descends : s.Descends u) (formed : s.Formed) (var : VarId) :
    u.domains.effort var ≤ s.domains.effort var :=
  DomainTable.effort_le descends.formed.canonical formed.canonical descends.within
    fun d e here there => descends.hasValue var e d there here

/-- What is as a choice says stays so further down. -/
theorem Descends.obeys (descends : s.Descends u) (canonical : s.domains.Canonical)
    {choice : Choice} (obeys : s.domains.Obeys choice) : u.domains.Obeys choice := by
  apply obeys.of_within descends.formed.canonical canonical descends.within
  intro d here
  obtain ⟨e, there, -⟩ := descends.within.larger here
  exact descends.hasValue _ e d there here (obeys.hasValue canonical there)

/-- Narrowing inside a new level leads further down. -/
theorem Formed.descends (formed : s.Formed) {t : DomainTable}
    (narrows : s.domains.pushLevel.Narrows t) :
    s.Descends { s with domains := t } where
  declarations := rfl
  constraints := rfl
  formed := formed.pushLevel.of_breaks (.narrowed narrows)
  within := narrows.within
  hasValue _ _ _ here there value := narrows.hasValue here there value

/-- A solution found below a store: stable, with some variables decided, and the greatest
stable table with its values of these variables and of the bound. -/
structure Leaf (bound : Option VarId) (vars : List VarId) (s u : Store) : Prop where
  descends : s.Descends u
  stable : u.domains.Stable s.rules
  decided : ∀ var ∈ vars, u.domains.Decided var
  greatest : ∀ p : DomainTable, p.Settled s.rules → p.Within s.domains →
    (∀ var ∈ vars, p.get? var = u.domains.get? var) →
    (∀ var, bound = some var → p.get? var = u.domains.get? var) → p.Within u.domains

/-- The store itself is its only leaf once everything is decided. -/
theorem Formed.leaf (formed : s.Formed) (stable : s.domains.Stable s.rules)
    {vars : List VarId} (decided : ∀ var ∈ vars, s.domains.Decided var)
    (bound : Option VarId) : Leaf bound vars s s where
  descends := .refl formed
  stable := stable
  decided := decided
  greatest _ _ within _ _ := within

/-- The value of a bound is one that the bound can take. -/
theorem holds_of_boundValue? {bound : Option VarId} (canonical : u.domains.Canonical)
    {value : Int} (reached : SearchState.boundValue? u bound = some value) :
    ∃ var, bound = some var ∧ u.domains.Holds var value := by
  cases bound with
  | none => cases reached
  | some var =>
    refine ⟨var, rfl, ?_⟩
    simp only [SearchState.boundValue?, Option.bind_eq_bind, Option.bind_some] at reached
    cases here : u.domains.int? var with
    | none =>
      rw [here] at reached
      cases reached
    | some d =>
      have formed := canonical.int? here
      refine ⟨d, here, ?_⟩
      simp only [here, Option.bind_some] at reached
      cases only : d.value? with
      | some v =>
        rw [only] at reached
        cases reached
        exact (formed.value?_eq_some_iff.1 only value).2 rfl
      | none =>
        rw [only] at reached
        exact (formed.min?_eq_some_iff.1 reached).1

/-! ## Incumbents -/

/-- The incumbent after a solution: the value of the bound there. -/
def advance (bound : Option VarId) (incumbent : Option Int) (u : Store) : Option Int :=
  (SearchState.boundValue? u bound).or incumbent

def advanceAll (bound : Option VarId) (incumbent : Option Int) (leaves : List Store) :
    Option Int :=
  leaves.foldl (advance bound) incumbent

/-- Each solution improves on the incumbent of its time. -/
def Improving (bound : Option VarId) : Option Int → List Store → Prop
  | _, [] => True
  | incumbent, u :: rest =>
    u.domains.Improves bound incumbent ∧ Improving bound (advance bound incumbent u) rest

variable {bound : Option VarId} {incumbent : Option Int} {leaves first second : List Store}

theorem advanceAll_append :
    advanceAll bound incumbent (first ++ second) =
      advanceAll bound (advanceAll bound incumbent first) second :=
  List.foldl_append

theorem improving_append :
    Improving bound incumbent (first ++ second) ↔
      Improving bound incumbent first ∧
        Improving bound (advanceAll bound incumbent first) second := by
  induction first generalizing incumbent with
  | nil => simp [Improving, advanceAll]
  | cons u rest ih =>
    simp only [List.cons_append, Improving, ih, and_assoc]
    rfl

/-- What improves on a later incumbent improves on the earlier ones. -/
theorem Improving.earlier (improving : Improving bound incumbent leaves)
    (canonical : ∀ u ∈ leaves, u.domains.Canonical) {p : DomainTable}
    (improves : p.Improves bound (advanceAll bound incumbent leaves)) :
    p.Improves bound incumbent := by
  induction leaves generalizing incumbent with
  | nil => exact improves
  | cons u rest ih =>
    have later : p.Improves bound (advance bound incumbent u) :=
      ih improving.2 (fun w member => canonical w (by simp [member])) improves
    intro var best here there value holds
    cases reached : SearchState.boundValue? u bound with
    | none =>
      refine later var best here ?_ value holds
      rw [advance, reached]
      exact there
    | some v =>
      obtain ⟨var', here', own⟩ := holds_of_boundValue? (canonical u (by simp)) reached
      obtain rfl := Option.some.inj (here.symm.trans here')
      have less := later var v here (by rw [advance, reached]; rfl) value holds
      exact less.trans (improving.1 var best here there v own)

/-- What holds of an incumbent at first and of the bound at every solution holds of the incumbent
in the end. -/
theorem advanceAll_induction {P : Int → Prop} (start : ∀ best, incumbent = some best → P best)
    (step : ∀ u ∈ leaves, ∀ value, SearchState.boundValue? u bound = some value → P value) :
    ∀ best, advanceAll bound incumbent leaves = some best → P best := by
  induction leaves generalizing incumbent with
  | nil => exact start
  | cons u rest ih =>
    refine ih (fun best reached => ?_) fun w member => step w (by simp [member])
    cases own : SearchState.boundValue? u bound with
    | none =>
      rw [advance, own] at reached
      exact start best reached
    | some value =>
      rw [advance, own] at reached
      cases reached
      exact step u (by simp) best own

end Store

/-! ## The listener -/

namespace Listener

variable {ρ : Type} [Reporter ρ]

def acceptAll (l : Listener ρ) (leaves : List Store) : Listener ρ :=
  leaves.foldl (fun l u => (l.accept u).2) l

theorem acceptAll_append (l : Listener ρ) (first second : List Store) :
    l.acceptAll (first ++ second) = (l.acceptAll first).acceptAll second :=
  List.foldl_append

end Listener

/-! ## Pieces of search -/

variable {ρ : Type} [Reporter ρ]

/-- A piece of search has handed some stores to the listener, which are as described, and has
put the store back. -/
structure SearchState.Explored (bound : Option VarId) (vars : List VarId)
    (st st' : SearchState ρ) (leaves : List Store) : Prop where
  store : st'.store = st.store
  listener : st'.context.listener = st.context.listener.acceptAll leaves
  incumbent : st'.context.incumbent? = Store.advanceAll bound st.context.incumbent? leaves
  leaf : ∀ u ∈ leaves, Store.Leaf bound vars st.store u
  apart : leaves.Pairwise fun u w => ∃ var ∈ vars, u.domains.get? var ≠ w.domains.get? var
  improving : Store.Improving bound st.context.incumbent? leaves

/-- Every settled table below a store that has some variables decided is below one of the
leaves, unless it does not improve on the incumbent. -/
def Store.Covers (vars : List VarId) (bound : Option VarId) (s : Store)
    (incumbent : Option Int) (leaves : List Store) : Prop :=
  ∀ p : DomainTable, p.Settled s.rules → p.Within s.domains → (∀ var ∈ vars, p.Decided var) →
    p.Improves bound incumbent → ∃ u ∈ leaves, p.Within u.domains

namespace SearchState.Explored

variable {bound : Option VarId} {vars : List VarId} {st st' st'' : SearchState ρ}
  {first second : List Store}

/-- Nothing was handed over, and nothing was changed that leaves are about. -/
theorem nil (store : st'.store = st.store)
    (listener : st'.context.listener = st.context.listener)
    (incumbent : st'.context.incumbent? = st.context.incumbent?) :
    Explored bound vars st st' [] where
  store := store
  listener := listener
  incumbent := incumbent
  leaf := by simp
  apart := .nil
  improving := trivial

theorem append (left : Explored bound vars st st' first)
    (right : Explored bound vars st' st'' second)
    (apart : ∀ u ∈ first, ∀ w ∈ second, ∃ var ∈ vars,
      u.domains.get? var ≠ w.domains.get? var) :
    Explored bound vars st st'' (first ++ second) where
  store := right.store.trans left.store
  listener := by rw [right.listener, left.listener, Listener.acceptAll_append]
  incumbent := by rw [right.incumbent, left.incumbent, Store.advanceAll_append]
  leaf u member := by
    rcases List.mem_append.1 member with early | late
    · exact left.leaf u early
    · exact left.store ▸ right.leaf u late
  apart := List.pairwise_append.2 ⟨left.apart, right.apart, apart⟩
  improving := Store.improving_append.2 ⟨left.improving, left.incumbent ▸ right.improving⟩

/-- What was prepared before and tidied up after a piece is part of it. -/
theorem between {before after : SearchState ρ} (explored : Explored bound vars before after first)
    (start : Explored bound vars st before []) (finish : Explored bound vars after st' []) :
    Explored bound vars st st' first := by
  have whole := (start.append explored (by simp)).append finish (by simp)
  simpa using whole

theorem sound (explored : Explored bound vars st st' first) :
    ∀ u ∈ first, u.domains.Sound :=
  fun u member => (explored.leaf u member).descends.formed.sound

end SearchState.Explored

end StagedSearch
