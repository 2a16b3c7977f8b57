/-
# Candidates commit

A candidate that an order yields for an undecided variable is one that the table offers: a value
of a domain that has others, or an undecided element. Committing it succeeds and changes the
table, and where it holds there is less to decide about the variable. Nothing is asked of the
order: one that does not suit the domain yields no candidates.
-/

import StagedSearch.Proofs.Search.Attempt

namespace StagedSearch

namespace DomainTable

/-- The choice decides something that is open: it takes one of several values, or it is about an
undecided element. -/
def Offers (t : DomainTable) : Choice → Prop
  | .assign var value => ∃ d, t.int? var = some d ∧ value ∈ d ∧ d.isSingleton = false
  | .takeIn var element => ∃ d, t.set? var = some d ∧ element ∈ d.undecided
  | .leaveOut var element => ∃ d, t.set? var = some d ∧ element ∈ d.undecided

variable {t u : DomainTable} {choice : Choice}

/-- Where an offered choice holds there is less to decide about its variable. -/
theorem Offers.effort_lt (offers : t.Offers choice) (canonical : t.Canonical)
    (formed : u.Canonical) (within : u.Within t) (obeys : u.Obeys choice) :
    u.effort choice.var < t.effort choice.var := by
  cases choice with
  | assign var value =>
    obtain ⟨d, here, inside, open_⟩ := offers
    have parts := ValueOrder.parts_values canonical (int?_eq_some_iff.1 here) open_ (.refl d.values)
    exact parts.shrinks (.assign var value) (List.mem_map_of_mem (IntDomain.mem_values.2 inside))
      u formed within obeys
  | takeIn var element =>
    obtain ⟨d, here, undecided⟩ := offers
    exact (ValueOrder.parts_element (set?_eq_some_iff.1 here) undecided).shrinks
      (.takeIn var element) (by simp) u formed within obeys
  | leaveOut var element =>
    obtain ⟨d, here, undecided⟩ := offers
    exact (ValueOrder.parts_element (set?_eq_some_iff.1 here) undecided).shrinks
      (.leaveOut var element) (by simp) u formed within obeys

/-- Narrowing to an offered choice succeeds and is a change. -/
theorem Offers.operation_eq_ok (offers : t.Offers choice) (canonical : t.Canonical) :
    ∃ u, choice.operation t = .ok true u := by
  obtain ⟨changed, u, run⟩ : ∃ changed u, choice.operation t = .ok changed u := by
    cases choice with
    | assign var value =>
      obtain ⟨d, here, inside, -⟩ := offers
      exact Narrowing.exists_restrict_eq_ok canonical here inside le_rfl le_rfl
    | takeIn var element =>
      obtain ⟨d, here, undecided⟩ := offers
      exact Narrowing.exists_includeElement_eq_ok here (SetDomain.mem_undecided.1 undecided).1
    | leaveOut var element =>
      obtain ⟨d, here, undecided⟩ := offers
      exact Narrowing.exists_excludeElement_eq_ok here (SetDomain.mem_undecided.1 undecided).2
  cases changed with
  | true => exact ⟨u, run⟩
  | false =>
    -- Without a change the choice would hold already, and there would be less to decide.
    obtain rfl := (Choice.carries_operation choice).eq_of_down canonical run
    have less := offers.effort_lt canonical canonical (.refl u)
      (Choice.obeys_of_operation canonical run)
    exact absurd less (Nat.lt_irrefl _)

end DomainTable

/-- Committing an offered choice succeeds and is a change. -/
theorem Choice.commit_of_offers {s : Store} {choice : Choice} (offers : s.domains.Offers choice)
    (canonical : s.domains.Canonical) : (choice.commit s).1 = .ok true := by
  obtain ⟨u, run⟩ := offers.operation_eq_ok canonical
  rw [commit_eq_narrow, Store.narrow, run]

namespace ValueOrder

variable {s : Store} {var : VarId} {order : ValueOrder}

theorem not_mem_none {choice : Choice} : choice ∉ Branching.none.candidates.toList := by
  simp [Branching.none, Candidates.toList]

/-- The choices about an element are made only of an undecided one. -/
theorem of_mem_elementChoices {e : Option Int} {choice : Choice}
    (listed : choice ∈ (elementChoices var e).candidates.toList) :
    ∃ element, e = some element ∧
      (choice = .takeIn var element ∨ choice = .leaveOut var element) := by
  cases e with
  | none => exact absurd listed not_mem_none
  | some element =>
    refine ⟨element, rfl, ?_⟩
    simpa [elementChoices, Branching.ofList, Candidates.toList] using listed

/-- Whatever the order is, a candidate takes a value of an integer domain, or is about an
undecided element of a set. -/
theorem of_mem_candidates {choice : Choice}
    (listed : choice ∈ (order.candidates s var).1.candidates.toList) :
    (∃ d value, s.domains.get? var = some (.int d) ∧ value ∈ d ∧ choice = .assign var value) ∨
      ∃ d element, s.domains.get? var = some (.set d) ∧ element ∈ d.undecided ∧
        (choice = .takeIn var element ∨ choice = .leaveOut var element) := by
  cases here : s.domains.get? var with
  | none =>
    have refused : (order.candidates s var).1 = Branching.none := by
      unfold candidates
      rw [here]
      cases order <;> rfl
    exact absurd (refused ▸ listed) not_mem_none
  | some d =>
    cases d with
    | int d =>
      by_cases suits : order.Suits (.int d)
      · obtain ⟨values, equal, perm⟩ := exists_perm_values suits here
        rw [equal] at listed
        obtain ⟨value, member, rfl⟩ := List.mem_map.1 listed
        exact .inl ⟨d, value, rfl, IntDomain.mem_values.1 (perm.mem_iff.1 member), rfl⟩
      · cases order with
        | smallestElement | largestElement =>
          simp only [candidates, here] at listed
          exact absurd listed not_mem_none
        | _ => exact absurd trivial suits
    | set d =>
      cases order with
      | smallestElement =>
        simp only [candidates, here] at listed
        obtain ⟨element, first, either⟩ := of_mem_elementChoices listed
        exact .inr ⟨d, element, rfl, List.mem_of_head? first, either⟩
      | largestElement =>
        simp only [candidates, here] at listed
        obtain ⟨element, last, either⟩ := of_mem_elementChoices listed
        exact .inr ⟨d, element, rfl, List.mem_of_getLast? last, either⟩
      | _ =>
        simp only [candidates, here] at listed
        exact absurd listed not_mem_none

/-- Candidates are about the variable. -/
theorem about_candidates {choice : Choice}
    (listed : choice ∈ (order.candidates s var).1.candidates.toList) : choice.var = var := by
  rcases of_mem_candidates listed with ⟨d, value, -, -, rfl⟩ | ⟨d, element, -, -, rfl | rfl⟩ <;> rfl

/-- The candidates of an undecided variable are offered. -/
theorem offers_of_candidates (undecided : s.isSingleton var = false) {choice : Choice}
    (listed : choice ∈ (order.candidates s var).1.candidates.toList) :
    s.domains.Offers choice := by
  rcases of_mem_candidates listed with
    ⟨d, value, here, inside, rfl⟩ | ⟨d, element, here, open_, rfl | rfl⟩
  · refine ⟨d, DomainTable.int?_eq_some_iff.2 here, inside, ?_⟩
    simpa [Store.isSingleton, here, Domain.isSingleton] using undecided
  · exact ⟨d, DomainTable.set?_eq_some_iff.2 here, open_⟩
  · exact ⟨d, DomainTable.set?_eq_some_iff.2 here, open_⟩

end ValueOrder

end StagedSearch
