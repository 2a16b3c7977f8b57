/-
# Sweeping ends at a fixpoint

`DomainTable.propagateAll` goes on only while the table gets lighter, which makes it a function.
Here the repetition is written down without that proviso (`DomainTable.Sweeps`): sweep after
sweep until one fails or changes nothing. The proviso is never what ends it, because the flag of
a sweep is exact. So the repetition ends after no more sweeps than the domains have values and
undecided elements to lose, and where it succeeds every rule stands still.
-/

import StagedSearch.Proofs.Store.Reachable

namespace StagedSearch

namespace DomainTable

/-- Sweeping until a sweep fails or changes nothing: after how many sweeps it ends, whether
with success, and on which table. -/
inductive Sweeps (constraints : List Constraint) : Nat → DomainTable → Bool × DomainTable → Prop
  | failed {t u : DomainTable} {e : Inconsistency} (run : sweep constraints t = .error e u) :
      Sweeps constraints 1 t (false, u)
  | unchanged {t u : DomainTable} (run : sweep constraints t = .ok false u) :
      Sweeps constraints 1 t (true, u)
  | changed {number : Nat} {t u : DomainTable} {outcome : Bool × DomainTable}
      (run : sweep constraints t = .ok true u) (later : Sweeps constraints number u outcome) :
      Sweeps constraints (number + 1) t outcome

variable {constraints : List Constraint} {t u : DomainTable}

/-- There is one way to sweep. -/
theorem Sweeps.unique {number number' : Nat} {outcome outcome' : Bool × DomainTable}
    (first : Sweeps constraints number t outcome) (second : Sweeps constraints number' t outcome') :
    number = number' ∧ outcome = outcome' := by
  induction first generalizing number' with
  | failed run =>
    cases second with
    | failed run' => cases run.symm.trans run'; exact ⟨rfl, rfl⟩
    | unchanged run' => cases run.symm.trans run'
    | changed run' => cases run.symm.trans run'
  | unchanged run =>
    cases second with
    | failed run' => cases run.symm.trans run'
    | unchanged run' => cases run.symm.trans run'; exact ⟨rfl, rfl⟩
    | changed run' => cases run.symm.trans run'
  | changed run _ ih =>
    cases second with
    | failed run' => cases run.symm.trans run'
    | unchanged run' => cases run.symm.trans run'
    | changed run' later' =>
      cases run.symm.trans run'
      obtain ⟨rfl, rfl⟩ := ih later'
      exact ⟨rfl, rfl⟩

/-- Propagation sweeps to the end, in no more sweeps than the table can get lighter and one. -/
theorem exists_sweeps (canonical : t.Canonical) :
    ∃ number, number ≤ t.weight + 1 ∧
      Sweeps constraints number t (propagateAll constraints t) := by
  induction t using propagateAll.induct constraints with
  | case1 t e w failed =>
    rw [propagateAll, failed]
    exact ⟨1, by omega, .failed failed⟩
  | case2 t w unchanged =>
    rw [propagateAll, unchanged]
    exact ⟨1, by omega, .unchanged unchanged⟩
  | case3 t w changed lighter ih =>
    rw [propagateAll, changed]
    simp only [lighter, if_true]
    obtain ⟨number, bounded, later⟩ :=
      ih (((carries_sweep constraints).narrows canonical changed).canonical canonical)
    exact ⟨number + 1, by omega, .changed changed later⟩
  | case4 t w changed heavy =>
    have follows := carries_sweep constraints t canonical
    rw [changed] at follows
    rcases follows.2.1 rfl with up | lighter
    · cases up
    · exact absurd lighter heavy

/-! ## Standing still -/

/-- Sweeping that succeeds ends on a table on which every rule stands still. -/
theorem Sweeps.fixed {number : Nat} {outcome : Bool × DomainTable}
    (sweeps : Sweeps constraints number t outcome) (canonical : t.Canonical)
    (succeeds : outcome.1 = true) : outcome.2.Fixed constraints := by
  induction sweeps with
  | failed run => cases succeeds
  | unchanged run =>
    obtain ⟨rfl, each⟩ :=
      Narrowing.of_anyChange_eq_ok_false (fun c _ => c.carries_propagate) canonical run
    exact each
  | changed run _ ih =>
    exact ih (((carries_sweep constraints).narrows canonical run).canonical canonical) succeeds

/-- Where every rule stands still a sweep changes nothing. -/
theorem Fixed.sweep (fixed : t.Fixed constraints) : sweep constraints t = .ok false t := by
  induction constraints with
  | nil => rfl
  | cons c rest ih =>
    have later := ih fun other member => fixed other (by simp [member])
    refine bind_eq_ok.2 ⟨false, t, fixed c (by simp), ?_⟩
    exact bind_eq_ok.2 ⟨false, t, later, rfl⟩

theorem Fixed.propagateAll (fixed : t.Fixed constraints) :
    propagateAll constraints t = (true, t) := by
  rw [DomainTable.propagateAll, fixed.sweep]

/-! ## What a change is -/

/-- A table that got lighter has a variable whose domain lost something. -/
theorem Narrows.exists_lost (narrows : t.Narrows u) (canonical : t.Canonical)
    (lighter : u.weight < t.weight) :
    ∃ var d e, t.get? var = some d ∧ u.get? var = some e ∧ e.Within d ∧ ¬ d.Within e := by
  by_contra kept
  have back : t.Within u := by
    intro var
    cases here : t.get? var with
    | none =>
      cases there : u.get? var with
      | none => exact .none
      | some e =>
        obtain ⟨d, found, -⟩ := narrows.within.larger there
        rw [here] at found
        cases found
    | some d =>
      obtain ⟨e, there, inner⟩ := narrows.within.smaller here
      rw [there]
      refine .some ?_
      by_contra outside
      exact kept ⟨var, d, e, here, there, inner, outside⟩
  have same := narrows.within.domains_eq (narrows.canonical canonical) canonical back
  simp [weight, same] at lighter

end DomainTable

/-- The flag of a rule that succeeds: up only if a domain lost something and no other domain
gained anything, and down only if the table is as it was. -/
theorem Constraint.flag_exact {t u : DomainTable} {changed : Bool} (c : Constraint)
    (canonical : t.Canonical) (run : c.propagate t = .ok changed u) :
    u.Within t ∧
      (changed = true → ∃ var d e, t.get? var = some d ∧ u.get? var = some e ∧ e.Within d ∧
        ¬ d.Within e) ∧
      (changed = false → u = t) := by
  have follows := c.carries_propagate t canonical
  rw [run] at follows
  obtain ⟨narrows, up, down⟩ := follows
  refine ⟨narrows.within, fun flag => ?_, fun flag => (down flag).2⟩
  rcases up flag with before | lighter
  · cases before
  · exact narrows.exists_lost canonical lighter

namespace Store

variable {s : Store}

/-- Propagation in a store ends: sweeping comes to an end, in at most as many sweeps as there
are values and undecided elements to lose and one. Nothing but the domains changes, and these
only shrink. Where it succeeds, no rule of the store has anything left to do, so that it is not
worth repeating. On every canonical table, and those of stores are canonical, what a rule says
about a change is exact. -/
theorem fixpoint_of_consistency (reached : s.Reachable) :
    (∃ number, number ≤ s.domains.weight + 1 ∧
      DomainTable.Sweeps (s.constraints.map Imposed.constraint) number s.domains
        (s.consistency.1, s.consistency.2.domains)) ∧
    s.consistency.2 = { s with domains := s.consistency.2.domains } ∧
    s.consistency.2.domains.Within s.domains ∧
    (s.consistency.1 = true →
      (∀ imposed ∈ s.consistency.2.constraints,
        imposed.constraint.propagate s.consistency.2.domains =
          .ok false s.consistency.2.domains) ∧
      s.consistency.2.consistency = (true, s.consistency.2)) ∧
    ∀ (c : Constraint) (t u : DomainTable) (changed : Bool), t.Canonical →
      c.propagate t = .ok changed u →
      u.Within t ∧
        (changed = true → ∃ var d e, t.get? var = some d ∧ u.get? var = some e ∧ e.Within d ∧
          ¬ d.Within e) ∧
        (changed = false → u = t) := by
  have canonical := reached.formed.canonical
  obtain ⟨number, bounded, sweeps⟩ : ∃ number, number ≤ s.domains.weight + 1 ∧
      DomainTable.Sweeps (s.constraints.map Imposed.constraint) number s.domains
        (s.consistency.1, s.consistency.2.domains) := DomainTable.exists_sweeps canonical
  obtain ⟨t, breaks, equal⟩ := exists_breaks_of_consistency canonical
  have same : s.consistency.2 = { s with domains := s.consistency.2.domains } := rfl
  refine ⟨⟨number, bounded, sweeps⟩, same, ?_, fun succeeds => ?_,
    fun c t u changed canonical run => c.flag_exact canonical run⟩
  · rw [equal]
    exact breaks.within
  · have fixed := sweeps.fixed canonical succeeds
    refine ⟨fun imposed member => fixed _ (List.mem_map_of_mem member), ?_⟩
    have again := fixed.propagateAll
    unfold consistency at again ⊢
    simp only [again]

/-- A chain of three variables takes three sweeps, and a sum that has a variable twice, posted
before it, takes part in it. -/
theorem fixpoint_of_chain :
    let s := StoreOperation.applyAll Store.empty [.declareInt "x" 1 5, .declareInt "y" 0 5,
      .declareInt "z" 0 5, .impose (.sumEquals [⟨0⟩, ⟨0⟩] ⟨2⟩), .impose (.lessThan ⟨1⟩ ⟨2⟩),
      .impose (.lessThan ⟨0⟩ ⟨1⟩)]
    s.Reachable ∧
      (∃ number, number ≤ s.domains.weight + 1 ∧
        DomainTable.Sweeps [.sumEquals [⟨0⟩, ⟨0⟩] ⟨2⟩, .lessThan ⟨1⟩ ⟨2⟩, .lessThan ⟨0⟩ ⟨1⟩]
          number s.domains (true, s.consistency.2.domains)) ∧
      s.consistency.2.consistency = (true, s.consistency.2) ∧
      (s.consistency.2.domains.int? ⟨0⟩, s.consistency.2.domains.int? ⟨1⟩,
        s.consistency.2.domains.int? ⟨2⟩) =
          (some (.interval 1 3), some (.interval 2 4), some (.interval 3 5)) := by
  intro s
  have reached : s.Reachable := by
    apply Store.Reachable.empty.applyAll
    decide
  have succeeds : s.consistency.1 = true := by decide +kernel
  obtain ⟨⟨number, bounded, sweeps⟩, -, -, still, -⟩ := fixpoint_of_consistency reached
  rw [succeeds] at sweeps
  exact ⟨reached, ⟨number, bounded, sweeps⟩, (still succeeds).2, by decide +kernel⟩

end Store

end StagedSearch
