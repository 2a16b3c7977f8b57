/-
# Propagation does not depend on the order of the constraints

The rules are applied in the order in which constraints were imposed, and a rule that fails
ends the propagation there. The outcome does not depend on that order: it is the greatest
fixpoint of the rules, or a failure where there is none. A table that a failure leaves behind
does depend on it, and nothing is said about that.
-/

import StagedSearch.Proofs.Store.Reachable
import StagedSearch.Proofs.Store.Saved
import StagedSearch.Proofs.Store.Values

namespace StagedSearch

namespace DomainTable

variable {constraints others : List Constraint} {t u w : DomainTable}

theorem settled_perm (perm : others.Perm constraints) :
    t.Settled others ↔ t.Settled constraints := by
  constructor
  · intro settled
    exact ⟨settled.sound, settled.filled, settled.stable.perm perm.symm⟩
  · intro settled
    exact ⟨settled.sound, settled.filled, settled.stable.perm perm⟩

/-- Rules in another order fail where these fail. -/
theorem propagateAll_perm (sound : t.Sound) (filled : t.Filled)
    (perm : others.Perm constraints) :
    (propagateAll others t).1 = (propagateAll constraints t).1 := by
  apply Bool.eq_iff_iff.2
  rw [propagateAll_eq_true_iff sound filled, propagateAll_eq_true_iff sound filled]
  exact exists_congr fun p => and_congr_left fun _ => settled_perm perm

/-- There is only one greatest fixpoint. -/
theorem IsGreatestFixpoint.domains_eq (first : u.IsGreatestFixpoint others t)
    (second : w.IsGreatestFixpoint constraints t) (perm : others.Perm constraints)
    (left : u.Canonical) (right : w.Canonical) : u.domains = w.domains := by
  refine Within.domains_eq left right ?_ ?_
  · exact second.greatest u left first.filled first.within
      fun c member => first.fixed c (perm.mem_iff.2 member)
  · exact first.greatest w right second.filled second.within
      fun c member => second.fixed c (perm.mem_iff.1 member)

end DomainTable

namespace Store

variable {s : Store}

/-- Constraints in another order make propagation succeed or fail alike, and when it succeeds
it comes to the greatest fixpoint either way; the two tables differ at most in the order of
what the innermost level saved. -/
theorem consistency_of_perm (reached : s.Reachable) (filled : s.domains.Filled)
    {constraints : List Imposed} (perm : constraints.Perm s.constraints) :
    { s with constraints }.consistency.1 = s.consistency.1 ∧
      (s.consistency.1 = true →
        s.consistency.2.domains.IsGreatestFixpoint (s.constraints.map Imposed.constraint)
          s.domains ∧
        { s with constraints }.consistency.2.domains.Alike s.consistency.2.domains) := by
  have formed := reached.formed
  have sound := formed.sound
  have perm := perm.map Imposed.constraint
  have flags : { s with constraints }.consistency.1 = s.consistency.1 :=
    DomainTable.propagateAll_perm sound filled perm
  refine ⟨flags, fun succeeds => ?_⟩
  have run : s.domains.propagateAll (s.constraints.map Imposed.constraint) =
      (true, s.consistency.2.domains) := Prod.ext succeeds rfl
  have run' : s.domains.propagateAll (constraints.map Imposed.constraint) =
      (true, { s with constraints }.consistency.2.domains) :=
    Prod.ext (flags.trans succeeds) rfl
  have greatest := DomainTable.isGreatestFixpoint_of_propagateAll sound filled run
  have greatest' := DomainTable.isGreatestFixpoint_of_propagateAll sound filled run'
  obtain ⟨narrows, -⟩ := DomainTable.narrows_of_propagateAll sound.canonical run
  obtain ⟨narrows', -⟩ := DomainTable.narrows_of_propagateAll sound.canonical run'
  refine ⟨greatest, narrows'.alike narrows sound.canonical formed.nested ?_⟩
  exact greatest'.domains_eq greatest perm (narrows'.canonical sound.canonical)
    (narrows.canonical sound.canonical)

/-- Three variables in a row inside a level, with two constraints that narrow them. -/
theorem consistency_of_perm_chain :
    ∃ (s : Store) (constraints : List Imposed), s.Reachable ∧ s.domains.Filled ∧
      constraints.Perm s.constraints ∧ constraints ≠ s.constraints ∧
      s.consistency.1 = true ∧ { s with constraints }.consistency.1 = s.consistency.1 ∧
      { s with constraints }.consistency.2.domains.Alike s.consistency.2.domains := by
  let s := StoreOperation.applyAll empty
    [.declareInt "x" 0 3, .declareInt "y" 0 3, .declareInt "z" 0 3, .pushLevel,
      .impose (.lessThan ⟨0⟩ ⟨1⟩), .impose (.lessThan ⟨1⟩ ⟨2⟩)]
  have reached : s.Reachable := by
    apply Reachable.empty.applyAll
    simp [StoreOperation.InRange, Signed64.InRange, Signed64.least, Signed64.greatest]
  have filled : s.domains.Filled := by
    intro var d here
    have member : d ∈ s.domains.domains := Array.mem_of_getElem? here
    have interval : d = .int (IntDomain.interval 0 3) := by
      have all : ∀ e ∈ s.domains.domains, e = .int (IntDomain.interval 0 3) := by decide
      exact all d member
    subst interval
    exact ⟨0, by decide⟩
  have perm : [s.constraints[1], s.constraints[0]].Perm s.constraints := by decide
  have satisfies : s.Satisfies fun var =>
      if var = ⟨0⟩ then some (.int 0) else if var = ⟨1⟩ then some (.int 1)
      else if var = ⟨2⟩ then some (.int 2) else none := by
    refine ⟨?_, ?_⟩
    · rintro ⟨_ | _ | _ | i⟩
      · exact ⟨.int 0, rfl, IntDomain.mem_interval.2 (by decide : (0 : Int) ≤ 0 ∧ (0 : Int) ≤ 3)⟩
      · exact ⟨.int 1, rfl, IntDomain.mem_interval.2 (by decide : (0 : Int) ≤ 1 ∧ (1 : Int) ≤ 3)⟩
      · exact ⟨.int 2, rfl, IntDomain.mem_interval.2 (by decide : (0 : Int) ≤ 2 ∧ (2 : Int) ≤ 3)⟩
      · rfl
    · intro imposed member
      have all : ∀ other ∈ s.constraints,
          other = ⟨1, .lessThan ⟨0⟩ ⟨1⟩⟩ ∨ other = ⟨1, .lessThan ⟨1⟩ ⟨2⟩⟩ := by decide
      rcases all imposed member with rfl | rfl
      · exact Constraint.holds_lessThan_iff.2 ⟨0, 1, rfl, rfl, by decide⟩
      · exact Constraint.holds_lessThan_iff.2 ⟨1, 2, rfl, rfl, by decide⟩
  obtain ⟨same, rest⟩ := consistency_of_perm reached filled perm
  have succeeds := satisfies.consistent reached.formed
  exact ⟨s, _, reached, filled, perm, by decide, succeeds, same, (rest succeeds).2⟩

end Store

end StagedSearch
