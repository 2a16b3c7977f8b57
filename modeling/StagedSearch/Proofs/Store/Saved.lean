/-
# What narrowing puts on the trail

However a table was narrowed, the innermost level has saved exactly the variables whose
domains are different now, each once and with what it had before. So two ways of narrowing
that lead to the same domains also lead to the same stamps, and to trails that differ at most
in the order of the entries (`Alike`).
-/

import StagedSearch.Proofs.Store.Trail

namespace StagedSearch

namespace DomainTable

/-- Tables with the same domains and stamps whose levels have saved the same, perhaps in
another order. -/
structure Alike (t u : DomainTable) : Prop where
  domains : t.domains = u.domains
  stamps : t.savedAt = u.savedAt
  trail : List.Forall₂ List.Perm t.trail u.trail

/-- The innermost level has saved `new` on the way from the first table to the second: what
has changed, unless the level had saved it before. -/
structure Saves (t u : DomainTable) (new : List TrailEntry) : Prop where
  trail : u.trail = t.trail.modifyHead (new ++ ·)
  nodup : new.Nodup
  entries : ∀ entry, entry ∈ new ↔ t.trail ≠ [] ∧ t.get? entry.var = some entry.domain ∧
    u.get? entry.var ≠ some entry.domain ∧
    t.savedAt[entry.var.index]? = some entry.savedAt ∧ entry.savedAt ≠ some t.level
  stamps : ∀ var, u.savedAt[var.index]? =
    if t.trail ≠ [] ∧ u.get? var ≠ t.get? var then some (some t.level)
    else t.savedAt[var.index]?

variable {t u w : DomainTable} {new : List TrailEntry}

theorem Saves.refl (t : DomainTable) : t.Saves t [] where
  trail := by cases t.trail <;> rfl
  nodup := .nil
  entries entry := by grind
  stamps var := by simp

theorem Saves.level (saves : t.Saves u new) : u.level = t.level := by
  simp [DomainTable.level, saves.trail]

theorem Saves.trail_eq_nil (saves : t.Saves u new) : u.trail = [] ↔ t.trail = [] := by
  rw [saves.trail]
  cases t.trail <;> simp

/-- After one more step the stamps still tell what has changed. -/
theorem Saves.stamps_replace (saves : t.Saves u new) (sizes : u.savedAt.size = u.domains.size)
    {var : VarId} {first d e : Domain} (before : t.get? var = some first)
    (here : u.get? var = some d) (changed : e ≠ first) (other : VarId) :
    (u.replace var e).savedAt[other.index]? =
      if t.trail ≠ [] ∧ (u.replace var e).get? other ≠ t.get? other then some (some t.level)
      else t.savedAt[other.index]? := by
  rw [savedAt_replace sizes here e other.index, saves.level]
  by_cases own : other = var
  · subst own
    have different : (u.replace other e).get? other ≠ t.get? other := by
      rw [get?_replace_self (get?_isSome_iff.1 (Option.isSome_of_eq_some here)), before]
      simpa using changed
    by_cases none : u.trail = []
    · have flat := saves.trail_eq_nil.1 none
      simp [none, flat, saves.stamps]
    · have opened := mt saves.trail_eq_nil.2 none
      rw [if_pos ⟨none, rfl⟩, if_pos ⟨opened, different⟩]
  · have index : other.index ≠ var.index := by
      cases other
      cases var
      simpa using own
    rw [if_neg (by simp [index]), get?_replace_of_ne own]
    exact saves.stamps other

/-- One more step saves one more variable, or none. -/
theorem Saves.replace (saves : t.Saves u new) (sizes : u.savedAt.size = u.domains.size)
    {var : VarId} {first d e : Domain} (before : t.get? var = some first)
    (here : u.get? var = some d) (changed : e ≠ first) :
    ∃ new, t.Saves (u.replace var e) new := by
  have same : (u.replace var e).get? var = some e :=
    get?_replace_self (get?_isSome_iff.1 (Option.isSome_of_eq_some here))
  have elsewhere (other : VarId) (different : other ≠ var) :
      (u.replace var e).get? other = u.get? other := get?_replace_of_ne different
  have level := saves.level
  have stamps := saves.stamps_replace sizes before here changed
  rcases replace_cases sizes here e with ⟨none, equal⟩ | ⟨rest, outer, open_, stamped, equal⟩ |
    ⟨rest, outer, stamp, open_, stamped, unmarked, equal⟩
  · have flat := saves.trail_eq_nil.1 none
    refine ⟨[], ?_, .nil, fun entry => by simp [flat], stamps⟩
    rw [equal]
    simp [flat, none]
  · -- The level had saved the variable, on the way here or before.
    have opened : t.trail ≠ [] := mt saves.trail_eq_nil.2 (by simp [open_])
    refine ⟨new, ?_, saves.nodup, fun entry => ?_, stamps⟩
    · rw [← saves.trail, equal]
      rfl
    · rw [saves.entries]
      have marked := saves.stamps entry.var
      by_cases own : entry.var = var
      · rw [own] at marked ⊢
        rw [same, before, here] at *
        grind
      · rw [elsewhere _ own]
  · -- The variable is saved now, as it was at first.
    have opened : t.trail ≠ [] := mt saves.trail_eq_nil.2 (by simp [open_])
    have marked := saves.stamps var
    have unchanged : d = first ∧ t.savedAt[var.index]? = some stamp := by
      rw [stamped, here, before] at marked
      split at marked
      · cases marked
        exact absurd (by rw [level]) unmarked
      · rename_i equal
        refine ⟨?_, marked.symm⟩
        by_contra different
        exact equal ⟨opened, by simpa using different⟩
    obtain ⟨rfl, stamped'⟩ := unchanged
    refine ⟨⟨var, d, stamp⟩ :: new, ?_, ?_, fun entry => ?_, stamps⟩
    · rw [equal]
      show (_ :: rest) :: outer = _
      have trail := saves.trail
      rw [open_] at trail
      cases base : t.trail with
      | nil => exact absurd base opened
      | cons first later =>
        rw [base] at trail
        obtain ⟨rfl, rfl⟩ := List.cons.inj trail
        rfl
    · refine List.nodup_cons.2 ⟨fun member => ?_, saves.nodup⟩
      exact ((saves.entries _).1 member).2.2.1 here
    · rw [List.mem_cons, saves.entries]
      by_cases own : entry.var = var
      · obtain ⟨v, f, s⟩ := entry
        obtain rfl : v = var := own
        simp only [same, here, before, stamped', level] at *
        grind
      · rw [elsewhere _ own]
        have : entry ≠ ⟨var, d, stamp⟩ := fun equal => own (equal ▸ rfl)
        simp [this]

theorem Narrows.exists_saves (narrows : t.Narrows u) (canonical : t.Canonical)
    {declarations : Array Variable} (nested : t.Nested declarations) :
    ∃ new, t.Saves u new := by
  induction narrows with
  | refl => exact ⟨[], .refl t⟩
  | @step u var d e earlier here within smaller new _ ih =>
    obtain ⟨saved, saves⟩ := ih
    obtain ⟨first, before, inner⟩ := earlier.within.larger here
    apply saves.replace (earlier.nested nested).fits.stamps before here
    rintro rfl
    exact smaller (within.antisymm new (earlier.canonical canonical _ _ here) inner)

/-- Narrowing to the same domains leaves the same to go back to. -/
theorem Narrows.alike (first : t.Narrows u) (second : t.Narrows w) (canonical : t.Canonical)
    {declarations : Array Variable} (nested : t.Nested declarations)
    (domains : u.domains = w.domains) : u.Alike w := by
  obtain ⟨new, left⟩ := first.exists_saves canonical nested
  obtain ⟨new', right⟩ := second.exists_saves canonical nested
  have same := get?_congr domains
  have members (entry : TrailEntry) : entry ∈ new ↔ entry ∈ new' := by
    rw [left.entries, right.entries, same]
  refine ⟨domains, Array.ext_getElem? fun i => ?_, ?_⟩
  · have := left.stamps ⟨i⟩
    rw [this, same, ← right.stamps ⟨i⟩]
  · rw [left.trail, right.trail]
    cases t.trail with
    | nil => exact .nil
    | cons entries outer =>
      refine .cons ?_ (List.forall₂_same.2 fun _ _ => .refl _)
      exact ((List.perm_ext_iff_of_nodup left.nodup right.nodup).2 members).append_right entries

end DomainTable

end StagedSearch
