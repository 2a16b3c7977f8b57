/-
# Propagation comes to the greatest fixpoint

Sweeping until nothing changes ends on a table that is stable for every constraint, and it
narrows away no stable table below the one it starts from. So what it comes to is the
greatest stable table, in whatever order the rules are applied, and it fails exactly where
there is none.
-/

import StagedSearch.Proofs.Propagation.Spares

namespace StagedSearch

namespace DomainTable

/-- The rules of all constraints have nothing to narrow. -/
def Stable (constraints : List Constraint) (t : DomainTable) : Prop :=
  ∀ c ∈ constraints, c.Stable t

/-- A table that nothing rules out: canonical, within the signed range, without an emptied
domain, and stable. -/
structure Settled (constraints : List Constraint) (t : DomainTable) : Prop where
  sound : t.Sound
  filled : t.Filled
  stable : t.Stable constraints

variable {constraints : List Constraint} {p t u : DomainTable}

theorem carries_sweep (constraints : List Constraint) :
    Narrowing.Carries false (sweep constraints) :=
  Narrowing.carries_anyChange fun c _ => c.carries_propagate

/-- A sweep without a change has met a stable table. -/
theorem stable_of_sweep (canonical : t.Canonical) (run : sweep constraints t = .ok false u) :
    u = t ∧ t.Stable constraints := by
  obtain ⟨rfl, each⟩ :=
    Narrowing.of_anyChange_eq_ok_false (fun c _ => c.carries_propagate) canonical run
  exact ⟨rfl, fun c member => Constraint.stable_of_propagate canonical (each c member)⟩

theorem Settled.spares_sweep (settled : p.Settled constraints) :
    Narrowing.Spares p (sweep constraints) fun _ => True :=
  Narrowing.spares_anyChange fun c member =>
    (settled.stable c member).spares settled.sound settled.filled

/-- Propagation that succeeds has narrowed the table to a stable one. -/
theorem narrows_of_propagateAll (canonical : t.Canonical)
    (run : propagateAll constraints t = (true, u)) : t.Narrows u ∧ u.Stable constraints := by
  induction t using propagateAll.induct constraints generalizing u with
  | case1 t e w failed =>
    rw [propagateAll, failed] at run
    cases run
  | case2 t w unchanged =>
    rw [propagateAll, unchanged] at run
    cases run
    obtain ⟨rfl, stable⟩ := stable_of_sweep canonical unchanged
    exact ⟨.refl w, stable⟩
  | case3 t w changed lighter ih =>
    rw [propagateAll, changed] at run
    simp only [lighter, if_true] at run
    have narrows := (carries_sweep constraints).narrows canonical changed
    obtain ⟨later, stable⟩ := ih (narrows.canonical canonical) run
    exact ⟨narrows.trans later, stable⟩
  | case4 t w changed heavy =>
    have follows := carries_sweep constraints t canonical
    rw [changed] at follows
    rcases follows.2.1 rfl with up | lighter
    · cases up
    · exact absurd lighter heavy

/-- Propagation that fails has narrowed the table, and perhaps emptied a domain. -/
theorem breaks_of_propagateAll (canonical : t.Canonical)
    (run : propagateAll constraints t = (false, u)) : t.Breaks u := by
  induction t using propagateAll.induct constraints generalizing u with
  | case1 t e w failed =>
    rw [propagateAll, failed] at run
    cases run
    have follows := carries_sweep constraints t canonical
    rw [failed] at follows
    exact follows
  | case2 t w unchanged =>
    rw [propagateAll, unchanged] at run
    cases run
  | case3 t w changed lighter ih =>
    rw [propagateAll, changed] at run
    simp only [lighter, if_true] at run
    have narrows := (carries_sweep constraints).narrows canonical changed
    exact narrows.breaks (ih (narrows.canonical canonical) run)
  | case4 t w changed heavy =>
    rw [propagateAll, changed] at run
    simp only [heavy, if_false] at run
    cases run

/-- Above a settled table propagation succeeds, and what it leaves is above that table. -/
theorem Settled.propagateAll (settled : p.Settled constraints) (below : p.Below t) :
    ∃ u, propagateAll constraints t = (true, u) ∧ p.Below u := by
  induction t using propagateAll.induct constraints with
  | case1 t e w failed =>
    obtain ⟨a, u, run, -, -⟩ := settled.spares_sweep t below
    rw [failed] at run
    cases run
  | case2 t w unchanged =>
    obtain ⟨rfl, -⟩ := stable_of_sweep below.sound.canonical unchanged
    refine ⟨w, ?_, below⟩
    rw [DomainTable.propagateAll, unchanged]
  | case3 t w changed lighter ih =>
    obtain ⟨a, u, run, above, -⟩ := settled.spares_sweep t below
    rw [changed] at run
    cases run
    obtain ⟨u, run, above⟩ := ih above
    refine ⟨u, ?_, above⟩
    rw [DomainTable.propagateAll, changed]
    simp only [lighter, if_true]
    exact run
  | case4 t w changed heavy =>
    have follows := carries_sweep constraints t below.sound.canonical
    rw [changed] at follows
    rcases follows.2.1 rfl with up | lighter
    · cases up
    · exact absurd lighter heavy

/-- Propagation from a filled table, if it succeeds, comes to a settled table. -/
theorem settled_of_propagateAll (sound : t.Sound) (filled : t.Filled)
    (run : propagateAll constraints t = (true, u)) : u.Settled constraints := by
  obtain ⟨narrows, stable⟩ := narrows_of_propagateAll sound.canonical run
  exact ⟨narrows.sound sound, narrows.filled filled, stable⟩

/-! ## Fixpoints of the rules -/

/-- The rules of all constraints succeed on the table and change nothing. -/
def Fixed (constraints : List Constraint) (t : DomainTable) : Prop :=
  ∀ c ∈ constraints, c.propagate t = .ok false t

/-- Every rule stands still on a settled table. -/
theorem Settled.fixed (settled : p.Settled constraints) : p.Fixed constraints := by
  intro c member
  obtain ⟨changed, u, run, below, -⟩ :=
    (settled.stable c member).spares settled.sound settled.filled p ⟨settled.sound, .refl p⟩
  have canonical := settled.sound.canonical
  obtain ⟨narrows, up, down⟩ := by simpa [run] using c.carries_propagate p canonical
  have same : u.domains = p.domains :=
    narrows.within.domains_eq (narrows.canonical canonical) canonical below.within
  cases changed with
  | true =>
    rcases up rfl with flag | lighter
    · cases flag
    · exact absurd lighter (by simp [weight, same])
  | false => rw [run, (down rfl).2]

theorem Fixed.stable (fixed : t.Fixed constraints) (canonical : t.Canonical) :
    t.Stable constraints :=
  fun c member => Constraint.stable_of_propagate canonical (fixed c member)

/-- What a rule leaves alone does not depend on the order of the rules. -/
theorem Stable.perm {others : List Constraint} (stable : t.Stable constraints)
    (perm : others.Perm constraints) : t.Stable others :=
  fun c member => stable c (perm.mem_iff.1 member)

/-- A table without emptied domains on which the rules stand still, and above all such tables
within the one that was started from. -/
structure IsGreatestFixpoint (u : DomainTable) (constraints : List Constraint)
    (t : DomainTable) : Prop where
  within : u.Within t
  filled : u.Filled
  fixed : u.Fixed constraints
  greatest : ∀ w : DomainTable, w.Canonical → w.Filled → w.Within t → w.Fixed constraints →
    w.Within u

/-- Propagation of a filled table comes to the greatest fixpoint. -/
theorem isGreatestFixpoint_of_propagateAll (sound : t.Sound) (filled : t.Filled)
    (run : propagateAll constraints t = (true, u)) : u.IsGreatestFixpoint constraints t := by
  have settled := settled_of_propagateAll sound filled run
  obtain ⟨narrows, -⟩ := narrows_of_propagateAll sound.canonical run
  refine ⟨narrows.within, settled.filled, settled.fixed, fun w canonical full within fixed => ?_⟩
  have below : w.Settled constraints :=
    ⟨⟨canonical, within.inRange sound.inRange⟩, full, fixed.stable canonical⟩
  obtain ⟨u', run', above⟩ := below.propagateAll ⟨sound, within⟩
  rw [run] at run'
  cases run'
  exact above.within

/-- Propagation of a filled table succeeds exactly if there is a settled table within it. -/
theorem propagateAll_eq_true_iff (sound : t.Sound) (filled : t.Filled) :
    (propagateAll constraints t).1 = true ↔
      ∃ p : DomainTable, p.Settled constraints ∧ p.Within t := by
  constructor
  · intro succeeds
    have run : propagateAll constraints t = (true, (propagateAll constraints t).2) :=
      Prod.ext succeeds rfl
    exact ⟨_, settled_of_propagateAll sound filled run,
      (narrows_of_propagateAll sound.canonical run).1.within⟩
  · rintro ⟨p, settled, within⟩
    obtain ⟨u, run, -⟩ := settled.propagateAll ⟨sound, within⟩
    rw [run]

end DomainTable

end StagedSearch
