/-
# What a solve has found

If every variable of a store is decided there, or is one that the search decides, then a leaf of
the search has everything decided, and what it has come to satisfies the store. So the best
solution of a solve that ran a tree satisfies the store.

A solve that has nothing to decide hands the store over as it is, and does not propagate. What
it has found satisfies the store exactly if propagation would succeed.
-/

import StagedSearch.Proofs.Solve.Status

namespace StagedSearch

namespace Store

/-- What a store has come to says nothing of variables that are not there. -/
theorem restrict_value? (s : Store) : s.restrict s.value? = s.value? := by
  funext var
  rcases Nat.lt_or_ge var.index s.size with inside | outside
  · exact restrict_of_lt inside
  · rw [restrict_of_le outside, value?_of_declaration?_none (declaration?_of_le outside)]

end Store

/-- Every variable of a store is decided there, or a hint claims it, or it is a decision
variable. -/
def SearchSpec.Decides (spec : SearchSpec) (names : Names) (s : Store) : Prop :=
  ∀ var : VarId, var.index < s.size →
    s.domains.Decided var ∨ var ∈ spec.claimed ∨ var ∈ names.decisions

theorem SearchStatus.ofResult_ne_trivial {result : SearchResult}
    {searchAll limitReached complete : Bool} :
    ofResult result searchAll limitReached complete ≠ .trivial := by
  unfold ofResult
  split_ifs <;> simp

namespace Solving

variable {request : SolveRequest} {spec : SearchSpec} {session after : Session}
  {outcome : SolveOutcome} {t : SearchTree} {st : SearchState ProtocolReporter}
  {objective : Option Objective} {leaves : List Store} {u : Store}

namespace Began

/-- A leaf has come to what satisfies the store, if everything is decided there. -/
theorem satisfies (began : Began request spec session.store t st objective leaves)
    (formed : session.store.Formed) (decides : spec.Decides request.names session.store)
    (member : u ∈ leaves) :
    session.store.Satisfies (session.store.restrict u.value?) := by
  have leaf := began.ran.explored.leaf u member
  have wider := SearchSpec.extends_of_wireCost formed began.wired
  -- A variable that was decided before is decided at the leaf, and the others are labelled.
  have decided (var : VarId) (inside : var.index < session.store.size) :
      u.domains.Decided var := by
    rcases decides var inside with ⟨d, here, single⟩ | named
    · refine leaf.descends.decided began.formed ⟨d, ?_, single⟩
      rw [SearchSpec.get?_of_wireCost formed began.wired inside, here]
    · exact leaf.decided var ((began.labels var).2 named)
  refine wider.restricted _ (leaf.satisfies began.formed fun var inside => ?_)
  rw [Store.size, leaf.descends.declarations] at inside
  exact wider.decided u leaf.descends.formed leaf.stable decided var inside

/-- Where something was found, the best solution has the values of a leaf. -/
theorem exists_best (began : Began request spec session.store t st objective leaves)
    (ended : Ended request spec t st outcome after) (found : outcome.found = true) :
    ∃ solution, ∃ u ∈ leaves, outcome.best = some solution ∧ solution.value? = u.value? := by
  obtain ⟨opened, start⟩ := began.listener
  rcases List.eq_nil_or_concat' leaves with rfl | ⟨init, u, rfl⟩
  · rw [ended.found, began.reports.count, start] at found
    simp [Solving.listener, Listener.all, Listener.solutions] at found
  · have last := congrArg Listener.last began.ran.explored.listener
    rw [Listener.last_acceptAll, ← ended.best] at last
    exact ⟨_, u, by simp, last, Solution.value?_capture u _ _⟩

end Began

/-- What a solve has found satisfies the store, and so the store can be satisfied, unless there
was nothing to decide and propagation would have failed. -/
theorem satisfies_of_found (reached : session.store.Reachable)
    (decides : spec.Decides request.names session.store)
    (solved : solve request spec session = .ok outcome after) (found : outcome.found = true) :
    ∃ solution, outcome.best = some solution ∧
      (session.store.Satisfies (session.store.restrict solution.value?) ↔
        (outcome.status = .trivial → session.store.consistency.1 = true)) ∧
      (session.store.Satisfiable ↔
        (outcome.status = .trivial → session.store.consistency.1 = true)) := by
  have formed := reached.formed
  rcases ended_or_handedOver solved with ⟨t, st, begun, ended⟩ | handed
  · obtain ⟨objective, leaves, began⟩ := exists_began formed begun
    obtain ⟨solution, u, member, best, values⟩ := began.exists_best ended found
    have satisfies := began.satisfies formed decides member
    have searched : outcome.status ≠ .trivial := by
      rw [ended.status]
      exact SearchStatus.ofResult_ne_trivial
    refine ⟨solution, best, ?_, ?_⟩
    · rw [values]
      exact iff_of_true satisfies fun trivial => absurd trivial searched
    · exact iff_of_true ⟨_, satisfies⟩ fun trivial => absurd trivial searched
  · obtain ⟨opened, best⟩ := handed.best
    obtain ⟨-, opened', -, trivial⟩ := handed.trivial
    have decided (var : VarId) (inside : var.index < session.store.size) :
        session.store.domains.Decided var :=
      (decides var inside).resolve_right (SearchSpec.not_mem_of_build_trivial trivial var)
    have exactly := formed.satisfies_value?_iff decided
    simp only [handed.status, forall_const]
    refine ⟨_, best, ?_, fun ⟨_, satisfies⟩ => satisfies.consistent formed, fun consistent =>
      ⟨_, exactly.2 consistent⟩⟩
    rw [Listener.nextSolution, Solution.value?_capture, Store.restrict_value?, exactly]

/-- An integer that has to differ from another one, which was decided before. -/
theorem satisfies_of_found_decided :
    ∃ (request : SolveRequest) (spec : SearchSpec) (session after : Session)
      (outcome : SolveOutcome) (solution : Solution), session.store.Reachable ∧
      spec.Decides request.names session.store ∧
      solve request spec session = .ok outcome after ∧ outcome.status = .exhausted ∧
      outcome.best = some solution ∧
      session.store.Satisfies (session.store.restrict solution.value?) := by
  let s := StoreOperation.applyAll Store.empty
    [.declareInt "x" 0 2, .declareInt "y" 1 1, .impose (.notEqual ⟨0⟩ ⟨1⟩)]
  let request : SolveRequest :=
    ⟨Names.empty, { SolveOptions.default with allSolutions := true }, false⟩
  let spec : SearchSpec :=
    ⟨.satisfy, none, some (.leaf .int ⟨[⟨0⟩], some .inputOrder, some .max, .complete⟩)⟩
  let session : Session := ⟨s, Sink.reliable, Clock.still, Generator.ofSeed 0, none, Journal.silent⟩
  let t := SearchTree.ofStages none
    [⟨⟨.int, [⟨0⟩], .inputOrder, .max, .complete, .descending⟩, .explicit⟩]
  have reached : s.Reachable := Store.Reachable.empty.applyAll (by decide)
  have decides : spec.Decides request.names s := by
    rintro ⟨i⟩ inside
    have two : i < 2 := inside
    obtain rfl | rfl : i = 0 ∨ i = 1 := by omega
    · exact .inr (.inl (List.mem_singleton.2 rfl))
    · exact .inl ⟨.int (.interval 1 1), rfl, rfl⟩
  have unhindered : Unhindered request spec session t :=
    ⟨rfl, SearchTree.complete_ofStages (by simp), rfl, rfl, rfl, rfl, rfl⟩
  have satisfiable : s.Satisfiable := by
    refine ⟨fun var => if var = ⟨0⟩ then some (.int 2) else
      if var = ⟨1⟩ then some (.int 1) else none, ?_, ?_⟩
    · rintro ⟨_ | _ | i⟩
      · exact ⟨.int 2, rfl, IntDomain.mem_interval.2 (by decide : (0 : Int) ≤ 2 ∧ (2 : Int) ≤ 2)⟩
      · exact ⟨.int 1, rfl, IntDomain.mem_interval.2 (by decide : (1 : Int) ≤ 1 ∧ (1 : Int) ≤ 1)⟩
      · rfl
    · intro imposed member
      obtain rfl : imposed = ⟨0, .notEqual ⟨0⟩ ⟨1⟩⟩ := List.mem_singleton.1 member
      exact Constraint.holds_notEqual_iff.2 ⟨2, 1, rfl, rfl, by decide⟩
  obtain ⟨outcome, after, solved, status, found⟩ :=
    unhindered.exists_exhausted reached.formed satisfiable
  obtain ⟨solution, best, satisfies, -⟩ := satisfies_of_found reached decides solved found
  refine ⟨request, spec, session, after, outcome, solution, reached, decides, solved, status, best,
    satisfies.2 ?_⟩
  intro trivial
  cases status.symm.trans trivial

/-- Two decided integers that have to differ and do not: a solve reports them as a solution. -/
theorem found_of_unsatisfiable :
    ¬ ∀ (request : SolveRequest) (spec : SearchSpec) (session after : Session)
      (outcome : SolveOutcome), session.store.Reachable →
      spec.Decides request.names session.store → solve request spec session = .ok outcome after →
      outcome.found = true → session.store.Satisfiable := by
  intro always
  let s := StoreOperation.applyAll Store.empty
    [.declareInt "x" 1 1, .declareInt "y" 1 1, .impose (.notEqual ⟨0⟩ ⟨1⟩)]
  let request : SolveRequest := ⟨Names.empty, SolveOptions.default, false⟩
  let spec : SearchSpec := ⟨.satisfy, none, none⟩
  let session : Session := ⟨s, Sink.reliable, Clock.still, Generator.ofSeed 0, none, Journal.silent⟩
  have reached : s.Reachable := Store.Reachable.empty.applyAll (by decide)
  have decides : spec.Decides request.names s := by
    rintro ⟨i⟩ inside
    have two : i < 2 := inside
    obtain rfl | rfl : i = 0 ∨ i = 1 := by omega
    · exact .inl ⟨.int (.interval 1 1), rfl, rfl⟩
    · exact .inl ⟨.int (.interval 1 1), rfl, rfl⟩
  have trivial : (built request spec session).outcome = .ok .trivial := rfl
  obtain ⟨outcome, after, solved⟩ := exists_solve_eq_ok reached.formed ⟨rfl, rfl⟩ trivial
  have found : outcome.found = true := by
    rcases ended_or_handedOver solved with ⟨t, st, begun, -⟩ | handed
    · cases begun
    · exact handed.found
  obtain ⟨assignment, satisfies⟩ := always request spec session after outcome reached decides solved
    found
  have fails : s.consistency.1 = false := by decide +kernel
  exact Bool.false_ne_true (fails.symm.trans (satisfies.consistent reached.formed))

end Solving

end StagedSearch
