/-
# What narrowing can do to a table

All narrowing comes down to one step: a domain is replaced by a smaller one that still has a
value. `Narrows` is a run of such steps, and every invariant of narrowing is derived from it
once. An operation that fails leaves the end of such a run, or one domain behind it without a
value (`Breaks`).

The flag of an operation is exact. `Carries` says so for an operation that continues one
whose flag is known, which is the form in which the propagation rules are put together.
-/

import StagedSearch.Proofs.Store.Tables
import StagedSearch.Store.Propagation

namespace StagedSearch

namespace DomainTable

/-- The second table comes from the first by replacing domains, one after another, by smaller
ones that have a value. -/
inductive Narrows : DomainTable → DomainTable → Prop
  | refl (t : DomainTable) : Narrows t t
  | step {t u : DomainTable} {var : VarId} {d e : Domain} (earlier : Narrows t u)
      (here : u.get? var = some d) (within : e.Within d) (smaller : e ≠ d)
      (canonical : e.Canonical) (filled : e.HasValue) : Narrows t (u.replace var e)

/-- What a failing operation leaves: some narrowing, and perhaps one emptied domain. -/
inductive Breaks : DomainTable → DomainTable → Prop
  | narrowed {t u : DomainTable} (narrows : Narrows t u) : Breaks t u
  | emptied {t u : DomainTable} {var : VarId} {d : IntDomain} (narrows : Narrows t u)
      (here : u.int? var = some d) : Breaks t (u.replace var (.int IntDomain.empty))

variable {t u w : DomainTable}

theorem Narrows.trans (first : t.Narrows u) (second : u.Narrows w) : t.Narrows w := by
  induction second with
  | refl => exact first
  | step _ here within smaller canonical filled ih =>
    exact .step ih here within smaller canonical filled

theorem Narrows.breaks (first : t.Narrows u) (second : u.Breaks w) : t.Breaks w := by
  cases second with
  | narrowed narrows => exact .narrowed (first.trans narrows)
  | emptied narrows here => exact .emptied (first.trans narrows) here

theorem Narrows.single {var : VarId} {d e : Domain} (here : t.get? var = some d)
    (within : e.Within d) (smaller : e ≠ d) (canonical : e.Canonical) (filled : e.HasValue) :
    t.Narrows (t.replace var e) :=
  .step (.refl t) here within smaller canonical filled

theorem Narrows.canonical (narrows : t.Narrows u) (canonical : t.Canonical) : u.Canonical := by
  induction narrows with
  | refl => exact canonical
  | step _ _ _ _ new _ ih => exact ih.replace new

theorem Narrows.within (narrows : t.Narrows u) : u.Within t := by
  induction narrows with
  | refl => exact .refl _
  | step _ here within _ _ _ ih => exact (Within.replace here within).trans ih

/-- A run of steps either did nothing or made the table lighter. -/
theorem Narrows.eq_or_weight_lt (narrows : t.Narrows u) (canonical : t.Canonical) :
    u = t ∨ u.weight < t.weight := by
  induction narrows with
  | refl => exact .inl rfl
  | @step u var d e earlier here within smaller new _ ih =>
    have lighter : (u.replace var e).weight < u.weight :=
      weight_replace_lt here (within.weight_lt new (earlier.canonical canonical _ _ here) smaller)
    rcases ih with rfl | less
    · exact .inr lighter
    · exact .inr (lighter.trans less)

theorem Narrows.weight_le (narrows : t.Narrows u) (canonical : t.Canonical) :
    u.weight ≤ t.weight := by
  rcases narrows.eq_or_weight_lt canonical with rfl | less
  · exact le_rfl
  · exact less.le

/-- A domain that has no value now had none before. -/
theorem Narrows.hasValue (narrows : t.Narrows u) {var : VarId} {d e : Domain}
    (before : t.get? var = some d) (after : u.get? var = some e) (filled : d.HasValue) :
    e.HasValue := by
  induction narrows generalizing e with
  | refl => exact Option.some.inj (before.symm.trans after) ▸ filled
  | step _ _ _ _ _ new ih =>
    rcases get?_replace_cases after with ⟨-, rfl⟩ | ⟨-, there⟩
    · exact new
    · exact ih there

theorem Narrows.filled (narrows : t.Narrows u) (filled : t.Filled) : u.Filled := by
  intro var e after
  obtain ⟨d, before, -⟩ := narrows.within.larger after
  exact narrows.hasValue before after (filled _ _ before)

theorem Breaks.within (breaks : t.Breaks u) : u.Within t := by
  cases breaks with
  | narrowed narrows => exact narrows.within
  | emptied narrows here =>
    exact (Within.replace (int?_eq_some_iff.1 here) (by simp [IntDomain.empty])).trans
      narrows.within

end DomainTable

/-! ## Running steps -/

section Steps

variable {ε σ α β : Type}

theorem bind_apply (x : EStateM ε σ α) (f : α → EStateM ε σ β) (s : σ) :
    (x >>= f) s = match x s with
      | .ok a s' => f a s'
      | .error e s' => .error e s' := by
  show EStateM.bind x f s = _
  unfold EStateM.bind
  cases x s <;> rfl

theorem pure_apply (a : α) (s : σ) : (pure a : EStateM ε σ α) s = .ok a s := rfl

theorem bind_eq_ok {x : EStateM ε σ α} {f : α → EStateM ε σ β} {s s' : σ} {b : β} :
    (x >>= f) s = .ok b s' ↔ ∃ a u, x s = .ok a u ∧ f a u = .ok b s' := by
  rw [bind_apply]
  cases x s <;> simp

theorem pure_eq_ok {a b : α} {s s' : σ} :
    (pure a : EStateM ε σ α) s = .ok b s' ↔ a = b ∧ s = s' := by
  rw [pure_apply]
  simp

/-- A step that follows another one in a request succeeds after it. -/
theorem except_bind_eq_ok {x : Except ε α} {f : α → Except ε β} {b : β} :
    (x >>= f) = .ok b ↔ ∃ a, x = .ok a ∧ f a = .ok b := by
  cases x <;> simp [bind, Except.bind]

theorem except_map_eq_ok {x : Except ε α} {f : α → β} {b : β} :
    x.map f = .ok b ↔ ∃ a, x = .ok a ∧ f a = b := by
  cases x <;> simp [Except.map]

end Steps

namespace Narrowing

variable {α β : Type}

theorem require_eq_ok {o : Option α} {a : α} {t u : DomainTable} :
    require o t = .ok a u ↔ o = some a ∧ t = u := by
  cases o with
  | none => exact ⟨nofun, nofun⟩
  | some b =>
    show (pure b : Narrowing α) t = _ ↔ _
    rw [pure_eq_ok, Option.some.injEq]

/-! ## Operations that only read -/

/-- The operation leaves the table as it is, whether it fails or not. -/
def Reads (op : Narrowing α) : Prop := ∀ t, (∃ a, op t = .ok a t) ∨ ∃ e, op t = .error e t

theorem reads_pure (a : α) : Reads (pure a : Narrowing α) := fun _ => .inl ⟨a, rfl⟩

theorem reads_require (o : Option α) : Reads (require o) := by
  intro t
  cases o with
  | none => exact .inr ⟨_, rfl⟩
  | some a => exact .inl ⟨a, rfl⟩

theorem Reads.bind {x : Narrowing α} {f : α → Narrowing β} (first : Reads x)
    (second : ∀ a, Reads (f a)) : Reads (x >>= f) := by
  intro t
  rw [bind_apply]
  rcases first t with ⟨a, run⟩ | ⟨e, run⟩
  · rw [run]
    exact second a t
  · rw [run]
    exact .inr ⟨e, rfl⟩

theorem reads_intDomain (var : VarId) : Reads (intDomain var) := fun t => reads_require _ t

theorem reads_setDomain (var : VarId) : Reads (setDomain var) := fun t => reads_require _ t

theorem reads_bounds (var : VarId) : Reads (bounds var) :=
  (reads_intDomain var).bind fun _ => reads_require _

theorem reads_value? (var : VarId) : Reads (value? var) :=
  (reads_intDomain var).bind fun _ => reads_pure _

theorem reads_negatedBounds (low high : Int) : Reads (negatedBounds low high) :=
  (reads_require _).bind fun _ => reads_pure _

theorem reads_allBounds (vars : List VarId) : Reads (allBounds vars) := by
  induction vars with
  | nil => exact reads_pure _
  | cons var rest ih => exact (reads_bounds var).bind fun _ => ih.bind fun _ => reads_pure _

theorem intDomain_eq_ok {var : VarId} {d : IntDomain} {t u : DomainTable} :
    intDomain var t = .ok d u ↔ t.int? var = some d ∧ t = u := by
  show require (t.int? var) t = _ ↔ _
  exact require_eq_ok

theorem setDomain_eq_ok {var : VarId} {d : SetDomain} {t u : DomainTable} :
    setDomain var t = .ok d u ↔ t.set? var = some d ∧ t = u := by
  show require (t.set? var) t = _ ↔ _
  exact require_eq_ok

theorem bounds_eq_ok {var : VarId} {low high : Int} {t u : DomainTable} :
    bounds var t = .ok (low, high) u ↔ t.Spans var low high ∧ t = u := by
  simp only [bounds, bind_eq_ok, intDomain_eq_ok, require_eq_ok, DomainTable.Spans]
  constructor
  · rintro ⟨d, _, ⟨here, rfl⟩, ends, rfl⟩
    cases least : d.min? with
    | none => simp [least] at ends
    | some a =>
      cases greatest : d.max? with
      | none => simp [least, greatest] at ends
      | some b =>
        simp only [least, greatest, Option.bind_eq_bind, Option.bind_some, Option.pure_def,
          Option.some.injEq, Prod.mk.injEq] at ends
        obtain ⟨rfl, rfl⟩ := ends
        exact ⟨⟨d, here, least, greatest⟩, rfl⟩
  · rintro ⟨⟨d, here, least, greatest⟩, rfl⟩
    exact ⟨d, t, ⟨here, rfl⟩, by simp [least, greatest], rfl⟩

theorem value?_eq_ok {var : VarId} {o : Option Int} {t u : DomainTable} :
    value? var t = .ok o u ↔ ∃ d, t.int? var = some d ∧ d.value? = o ∧ t = u := by
  simp only [value?, bind_eq_ok, intDomain_eq_ok, pure_eq_ok]
  constructor
  · rintro ⟨d, _, ⟨here, rfl⟩, value, rfl⟩
    exact ⟨d, here, value, rfl⟩
  · rintro ⟨d, here, value, rfl⟩
    exact ⟨d, t, ⟨here, rfl⟩, value, rfl⟩

/-! ## The exact flag -/

/-- What an operation may come to on a table, when it continues one whose flag was
`before`: the flag is up if that one was up or the table got lighter, and down only if that
one was down and nothing changed. -/
def Follows (t : DomainTable) (before : Bool) : EStateM.Result Inconsistency DomainTable Bool → Prop
  | .ok changed u =>
    t.Narrows u ∧ (changed = true → before = true ∨ u.weight < t.weight) ∧
      (changed = false → before = false ∧ u = t)
  | .error _ u => t.Breaks u

/-- The operation narrows, and its flag says exactly whether it or the one before changed
anything. -/
def Carries (before : Bool) (op : Narrowing Bool) : Prop :=
  ∀ t, t.Canonical → Follows t before (op t)

theorem carries_pure (before : Bool) : Carries before (pure before) :=
  fun t _ => ⟨.refl t, .inl, fun down => ⟨down, rfl⟩⟩

theorem Carries.after_read {before : Bool} {x : Narrowing α} {f : α → Narrowing Bool}
    (first : Reads x) (second : ∀ a, Carries before (f a)) : Carries before (x >>= f) := by
  intro t canonical
  rw [bind_apply]
  rcases first t with ⟨a, run⟩ | ⟨e, run⟩
  · rw [run]
    exact second a t canonical
  · rw [run]
    exact .narrowed (.refl t)

theorem Carries.bind {before : Bool} {x : Narrowing Bool} {f : Bool → Narrowing Bool}
    (first : Carries false x) (second : ∀ a, Carries (before || a) (f a)) :
    Carries before (x >>= f) := by
  intro t canonical
  rw [bind_apply]
  have here := first t canonical
  cases run : x t with
  | error e u =>
    rw [run] at here
    exact here
  | ok a u =>
    rw [run] at here
    obtain ⟨narrows, up, down⟩ := here
    have there := second a u (narrows.canonical canonical)
    show Follows t before (f a u)
    cases run' : f a u with
    | error e w =>
      rw [run'] at there
      exact narrows.breaks there
    | ok b w =>
      rw [run'] at there
      obtain ⟨narrows', up', down'⟩ := there
      refine ⟨narrows.trans narrows', fun changed => ?_, fun unchanged => ?_⟩
      · have later := narrows'.weight_le (narrows.canonical canonical)
        have earlier := narrows.weight_le canonical
        rcases up' changed with flag | less
        · rcases Bool.or_eq_true_iff.1 flag with flag | flag
          · exact .inl flag
          · rcases up flag with flag | less
            · cases flag
            · exact .inr (later.trans_lt less)
        · exact .inr (less.trans_le earlier)
      · obtain ⟨flag, rfl⟩ := down' unchanged
        obtain ⟨flag, here⟩ := Bool.or_eq_false_iff.1 flag
        exact ⟨flag, (down here).2⟩

theorem carries_anyChange {operation : α → Narrowing Bool} {list : List α}
    (each : ∀ a ∈ list, Carries false (operation a)) :
    Carries false (anyChange operation list) := by
  induction list with
  | nil => exact carries_pure false
  | cons a rest ih =>
    refine (each a (by simp)).bind fun first => ?_
    have later := ih fun b member => each b (by simp [member])
    refine later.bind fun second => ?_
    simpa using carries_pure (first || second)

end Narrowing

end StagedSearch
