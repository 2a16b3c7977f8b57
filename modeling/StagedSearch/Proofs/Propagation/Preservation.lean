/-
# Propagation preserves solutions

Propagation that succeeds changes nothing about which assignments satisfy a store, and it fails
only in a store that nothing satisfies. It says nothing about which domains are narrowed, and how
far; that is what the greatest fixpoint is about.

An assignment that satisfies a store is shown by a settled table below it, with every variable
decided, and no rule narrows such a table away. This is one argument for all constraints, for
scopes in which a variable stands at several places, and for values at the ends of the signed
range, because what a rule demands of a table (`Constraint.Stable`) covers them all. Conversely,
a narrower store admits no more.
-/

import StagedSearch.Proofs.Store.Values

namespace StagedSearch

namespace Store

variable {s : Store} {assignment : Assignment}

/-- A store is satisfied by an assignment exactly if a settled table below the store shows it and
every variable has a value that its kind can have. -/
theorem Formed.satisfies_iff_exists_settled (formed : s.Formed) :
    s.Satisfies assignment ↔
      (∀ var v value, s.declaration? var = some v → assignment var = some value →
        v.kind.Takes value) ∧
      ∃ p : DomainTable, p.Shows assignment ∧ p.Settled s.rules ∧ p.Within s.domains := by
  constructor
  · intro satisfies
    refine ⟨fun var v value declared given => ?_, satisfies.exists_settled formed⟩
    rcases formed.admitsAt_cases (satisfies.admits var) with
      ⟨-, none⟩ | ⟨v', d, value', declared', -, given', takes, -⟩
    · cases none.symm.trans given
    · obtain rfl := Option.some.inj (declared.symm.trans declared')
      obtain rfl := Option.some.inj (given.symm.trans given')
      exact takes
  · rintro ⟨takes, p, shows_, settled, within⟩
    refine ⟨fun var => ?_, fun imposed member => ?_⟩
    · unfold AdmitsAt
      cases declared : s.declaration? var with
      | none =>
        show assignment var = none
        by_contra some
        obtain ⟨value, given⟩ := Option.ne_none_iff_exists'.1 some
        have there := shows_ var
        rw [given] at there
        obtain ⟨d, here, -⟩ := within.larger there
        obtain ⟨v, declared', -⟩ := formed.declared here
        cases declared.symm.trans declared'
      | some v =>
        obtain ⟨d, here, -⟩ := formed.exists_domain declared
        obtain ⟨e, there, inner⟩ := within.smaller here
        rw [shows_ var] at there
        obtain ⟨value, given, rfl⟩ := Option.map_eq_some_iff.1 there
        rw [here]
        exact ⟨value, given, Value.admits_iff.2 ⟨takes var v value declared given, inner⟩⟩
    · apply (Constraint.stable_iff_holds shows_.mirrors settled.sound imposed.constraint).1
      exact settled.stable _ (List.mem_map.2 ⟨imposed, member, rfl⟩)

/-- Propagation that succeeds leaves the satisfying assignments as they are, and propagation that
fails had none to lose. -/
theorem satisfies_consistency_iff (reached : s.Reachable) :
    (s.consistency.1 = true →
        ∀ assignment, s.consistency.2.Satisfies assignment ↔ s.Satisfies assignment) ∧
      (s.consistency.1 = false → ∀ assignment, ¬ s.Satisfies assignment) := by
  have formed := reached.formed
  refine ⟨fun succeeds assignment => ?_, fun fails assignment satisfies => ?_⟩
  · have run : s.domains.propagateAll s.rules = (true, s.consistency.2.domains) :=
      Prod.ext succeeds rfl
    have narrower := (DomainTable.narrows_of_propagateAll formed.canonical run).1.within
    rw [formed.satisfies_iff_exists_settled, formed.consistency.satisfies_iff_exists_settled]
    refine and_congr_right fun _ => exists_congr fun p => and_congr_right fun _ =>
      and_congr_right fun settled => ⟨fun within => within.trans narrower, fun within => ?_⟩
    -- A settled table stays below whatever propagation comes to.
    obtain ⟨u, run', above⟩ := settled.propagateAll ⟨formed.sound, within⟩
    obtain rfl := (Prod.mk.inj (run.symm.trans run')).2
    exact above.within
  · cases fails.symm.trans (satisfies.consistent formed)

/-- Constraints with a variable at several places, over the whole signed range: one store that
propagation narrows without losing the assignment at its end, and one in which it fails. -/
theorem satisfies_consistency_iff_repeated :
    ∃ (s s' : Store) (assignment : Assignment), s.Reachable ∧ s.consistency.1 = true ∧
      s.consistency.2.domains ≠ s.domains ∧ assignment ⟨1⟩ = some (.int Signed64.least) ∧
      s.Satisfies assignment ∧ s.consistency.2.Satisfies assignment ∧
      s'.Reachable ∧ s'.consistency.1 = false ∧ ∀ assignment, ¬ s'.Satisfies assignment := by
  let s := StoreOperation.applyAll empty
    [.declareInt "x" Signed64.least Signed64.greatest,
      .declareInt "y" Signed64.least Signed64.greatest, .declareInt "z" (-1) 1,
      .impose (.negation ⟨0⟩ ⟨0⟩), .impose (.lessThan ⟨1⟩ ⟨0⟩),
      .impose (.sumEquals [⟨0⟩, ⟨2⟩] ⟨2⟩)]
  let s' := StoreOperation.applyAll empty [.declareInt "x" 0 3, .impose (.lessThan ⟨0⟩ ⟨0⟩)]
  let assignment : Assignment := fun var =>
    if var = ⟨0⟩ then some (.int 0) else if var = ⟨1⟩ then some (.int Signed64.least)
    else if var = ⟨2⟩ then some (.int 1) else none
  have reached : s.Reachable := by
    apply Reachable.empty.applyAll
    simp [StoreOperation.InRange, Signed64.InRange, Signed64.least, Signed64.greatest]
  have reached' : s'.Reachable := by
    apply Reachable.empty.applyAll
    simp [StoreOperation.InRange, Signed64.InRange, Signed64.least, Signed64.greatest]
  have satisfies : s.Satisfies assignment := by
    refine ⟨?_, ?_⟩
    · rintro ⟨_ | _ | _ | i⟩
      · exact ⟨.int 0, rfl, IntDomain.mem_interval.2 (by decide)⟩
      · exact ⟨.int Signed64.least, rfl, IntDomain.mem_interval.2 (by decide)⟩
      · exact ⟨.int 1, rfl, IntDomain.mem_interval.2 (by decide)⟩
      · rfl
    · intro imposed member
      have all : ∀ other ∈ s.constraints, other = ⟨0, .negation ⟨0⟩ ⟨0⟩⟩ ∨
          other = ⟨0, .lessThan ⟨1⟩ ⟨0⟩⟩ ∨ other = ⟨0, .sumEquals [⟨0⟩, ⟨2⟩] ⟨2⟩⟩ := by decide
      rcases all imposed member with rfl | rfl | rfl
      · exact Constraint.holds_negation_iff.2 ⟨0, 0, rfl, rfl, by decide⟩
      · exact Constraint.holds_lessThan_iff.2 ⟨Signed64.least, 0, rfl, rfl, by decide⟩
      · exact Constraint.holds_sumEquals_iff.2 ⟨[0, 1], rfl, rfl⟩
  have succeeds : s.consistency.1 = true := satisfies.consistent reached.formed
  have fails : s'.consistency.1 = false := by decide +kernel
  have narrowed : s.consistency.2.domains ≠ s.domains := by decide +kernel
  exact ⟨s, s', assignment, reached, succeeds, narrowed, rfl, satisfies,
    ((satisfies_consistency_iff reached).1 succeeds assignment).2 satisfies, reached', fails,
    (satisfies_consistency_iff reached').2 fails⟩

end Store

end StagedSearch
