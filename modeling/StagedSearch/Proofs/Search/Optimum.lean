/-
# Searching for the best solution

A thorough search for the least or greatest cost finds a solution exactly if the store is
satisfiable, and then the last accepted solution has the best cost that a satisfying assignment
can have.

Each leaf improves on the incumbent of its time, so the incumbent at the end is the least of
all bounds that were reported. A satisfying assignment is either shown by a leaf or does not
improve on that incumbent. This covers an incumbent at the least value of the range as well:
then nothing improves on it, and nothing is left out by trying nothing more.
-/

import StagedSearch.Proofs.Search.Exhausted
import StagedSearch.Proofs.Search.Pricing

namespace StagedSearch

/-- Whether a cost is at least as good as another one. To satisfy, all are. -/
def Goal.Prefers : Goal → Int → Int → Prop
  | satisfy, _, _ => True
  | minimize, best, other => best ≤ other
  | maximize, best, other => other ≤ best

namespace SearchSpec

variable {spec : SearchSpec} {s s' : Store} {cost : VarId} {o : Objective}

/-- The bound of an objective ranks the costs, and a lower rank is preferred. -/
theorem exists_ranks_of_wireCost (formed : s.Formed) (named : spec.cost = some cost)
    (wired : spec.wireCost s = .ok (some o, s')) :
    ∃ rank, s.Ranks cost s' o.bound rank ∧
      ∀ best other, rank best ≤ rank other → spec.goal.Prefers best other := by
  rcases wireCost_cases wired with
    ⟨-, same, -⟩ | ⟨cost', goal, named', same, rfl⟩ |
    ⟨cost', v, d, low, high, goal, named', declared, here, least, greatest, -, -, same, rfl⟩
  · cases same
  · obtain rfl := Option.some.inj (named.symm.trans named')
    obtain rfl := Option.some.inj same
    rw [goal]
    exact ⟨id, s'.ranks_self cost, fun _ _ le => le⟩
  · obtain rfl := Option.some.inj (named.symm.trans named')
    obtain rfl := Option.some.inj same
    rw [goal]
    exact ⟨(- ·), formed.ranks_withNegated (Array.getElem?_eq_some_iff.1 declared).1 here least
      greatest, fun _ _ le => Int.neg_le_neg_iff.1 le⟩

end SearchSpec

namespace SearchState

variable {ρ : Type} [Reporter ρ] {t : SearchTree} {st : SearchState ρ} {s u : Store}
  {cost bound : VarId} {rank : Int → Int} {leaves : List Store}

/-- The last leaf of a run that has left nothing out has a cost with the least rank, if its cost
is decided. -/
theorem Exhausts.rank_le (exhausts : Exhausts t (some bound) st (leaves ++ [u]))
    (ranks : s.Ranks cost st.store bound rank) {best other : Int}
    (given : Assignment.int? u.value? cost = some best) (attained : s.Attains cost other) :
    rank best ≤ rank other := by
  have leaf := exhausts.explored.leaf u (by simp)
  have formed := leaf.descends.formed
  have reached := ranks.reached u formed leaf.stable best (formed.int?_eq_some_iff.1 given)
  have incumbent : (t.run st).2.context.incumbent? = some (rank best) := by
    rw [exhausts.explored.incumbent, Store.advanceAll_append]
    show Store.advance (some bound) _ u = _
    rw [Store.advance, reached]
    rfl
  obtain ⟨assignment, satisfies, ranked⟩ := ranks.attained other attained
  obtain ⟨least, last, le⟩ := exhausts.exists_incumbent_le satisfies ranked
  obtain rfl := Option.some.inj (incumbent.symm.trans last)
  exact le

/-- What is known of a run for the best cost of a store that has left nothing out and labels all
variables of the store. -/
structure Optimizes (t : SearchTree) (st : SearchState ρ) (s : Store) (cost bound : VarId)
    (rank : Int → Int) (leaves : List Store) : Prop where
  exhausts : Exhausts t (some bound) st leaves
  formed : s.Formed
  extends_ : s.Extends st.store
  ranks : s.Ranks cost st.store bound rank
  numeric : ∃ v, s.declaration? cost = some v ∧ v.kind ≠ .set
  labels : ∀ var, var.index < s.size → var ∈ t.varsFrom 0

namespace Optimizes

/-- Every leaf has come to a satisfying assignment, since it has everything decided, the bound
included. -/
theorem satisfies (optimizes : Optimizes t st s cost bound rank leaves) (member : u ∈ leaves) :
    st.store.Satisfies u.value? := by
  have leaf := optimizes.exhausts.explored.leaf u member
  refine leaf.satisfies optimizes.exhausts.formed fun var inside => ?_
  rw [Store.size, leaf.descends.declarations] at inside
  exact optimizes.extends_.decided u leaf.descends.formed leaf.stable
    (fun var inside => leaf.decided var (optimizes.labels var inside)) var inside

/-- There is a leaf exactly if the store is satisfiable. -/
theorem ne_nil_iff (optimizes : Optimizes t st s cost bound rank leaves) :
    leaves ≠ [] ↔ s.Satisfiable := by
  rw [← optimizes.extends_.satisfiable_iff]
  constructor
  · intro nonempty
    obtain ⟨u, member⟩ := List.exists_mem_of_ne_nil leaves nonempty
    exact ⟨_, optimizes.satisfies member⟩
  · rintro satisfiable rfl
    exact optimizes.exhausts.not_satisfiable satisfiable

/-- The last leaf has a cost with the least rank. -/
theorem exists_best (optimizes : Optimizes t st s cost bound rank (leaves ++ [u])) :
    s.Satisfies (s.restrict u.value?) ∧ ∃ best, Assignment.int? u.value? cost = some best ∧
      s.Attains cost best ∧ ∀ other, s.Attains cost other → rank best ≤ rank other := by
  have before := optimizes.extends_.restricted _ (optimizes.satisfies (u := u) (by simp))
  obtain ⟨v, declared, numeric⟩ := optimizes.numeric
  obtain ⟨best, given⟩ := before.exists_int? optimizes.formed declared numeric
  have given' := given
  rw [Assignment.int?, Store.restrict_of_lt (Array.getElem?_eq_some_iff.1 declared).1] at given'
  exact ⟨before, best, given', ⟨_, before, given⟩,
    fun other attained => optimizes.exhausts.rank_le optimizes.ranks given' attained⟩

end Optimizes

end SearchState

namespace SearchSpec

variable {ρ : Type} [Reporter ρ] {spec : SearchSpec} {names : Names} {s : Store}
  {context : Context ρ} {t : SearchTree} {cost : VarId} {v : Variable}

/-- The run of a thorough optimization leaves nothing out, on a store whose bound ranks the
costs; a lower rank is preferred. -/
theorem exists_optimizes (formed : s.Formed) (goal : spec.goal.isOptimization = true)
    (named : spec.cost = some cost) (declared : s.declaration? cost = some v)
    (numeric : v.kind ≠ .set) (thorough : spec.Thorough names s context t)
    (labels : ∀ var, var.index < s.size → var ∈ t.vars) :
    ∃ bound rank leaves,
      SearchState.Optimizes t ((spec.build names s context).start t) s cost bound rank leaves ∧
      (t.run ((spec.build names s context).start t)).1 = ⟨!leaves.isEmpty, false, false⟩ ∧
      (spec.build names s context).context.listener = context.listener ∧
      ∀ best other, rank best ≤ rank other → spec.goal.Prefers best other := by
  obtain ⟨objective, leaves, wired, ready, completes⟩ :=
    exists_completes_of_build formed thorough
  obtain ⟨o, rfl⟩ := exists_objective_of_wireCost goal wired
  obtain ⟨rank, ranks, prefers⟩ := exists_ranks_of_wireCost formed named wired
  have wired' := wired_of_wireCost formed wired
  have exhausts : SearchState.Exhausts t (some o.bound) ((spec.build names s context).start t)
      leaves := by
    refine ⟨completes.explored, completes.covers, wired'.formed, ?_, fun var member => ?_⟩
    · show (spec.build names s context).context.objective.bind _ = none
      rw [ready.objective]
      exact wired'.fresh o rfl
    · exact ready.searchable.declared member
  refine ⟨o.bound, rank, leaves, ⟨exhausts, formed, extends_of_wireCost formed wired, ranks,
    ⟨v, declared, numeric⟩, fun var inside => SearchTree.mem_vars.1 (labels var inside)⟩,
    completes.result, ready.listener, prefers⟩

/-- A thorough search for the best cost finds a solution exactly if there is one, and the last
solution that it reports is a satisfying assignment with the best cost of all. -/
theorem reports_best_of_build (reached : s.Reachable) (goal : spec.goal.isOptimization = true)
    (named : spec.cost = some cost) (declared : s.declaration? cost = some v)
    (numeric : v.kind ≠ .set) (thorough : spec.Thorough names s context t)
    (recorded : context.listener.cost = some cost)
    (labels : ∀ var, var.index < s.size → var ∈ t.vars) :
    ((t.run ((spec.build names s context).start t)).1.found = true ↔ s.Satisfiable) ∧
      (s.Satisfiable → ∃ solution best,
        (t.run ((spec.build names s context).start t)).2.context.listener.last = some solution ∧
        (spec.build names s context).store.Satisfies solution.value? ∧
        s.Satisfies (s.restrict solution.value?) ∧
        solution.cost = some best ∧ s.Attains cost best ∧
        ∀ other, s.Attains cost other → spec.goal.Prefers best other) := by
  obtain ⟨bound, rank, leaves, optimizes, result, listener, prefers⟩ :=
    exists_optimizes reached.formed goal named declared numeric thorough labels
  refine ⟨?_, fun satisfiable => ?_⟩
  · rw [result, ← optimizes.ne_nil_iff]
    simp
  · have nonempty := optimizes.ne_nil_iff.2 satisfiable
    obtain ⟨init, u, rfl⟩ := (List.eq_nil_or_concat' leaves).resolve_left nonempty
    obtain ⟨before, best, given, attained, least⟩ := optimizes.exists_best
    have last := congrArg Listener.last optimizes.exhausts.explored.listener
    rw [Listener.last_acceptAll] at last
    refine ⟨_, best, last, ?_, ?_, ?_, attained, fun other attains =>
      prefers best other (least other attains)⟩
    · rw [Solution.value?_capture]
      exact optimizes.satisfies (by simp)
    · rw [Solution.value?_capture]
      exact before
    · show (((spec.build names s context).context.listener.cost.bind u.value?).bind _) = _
      rw [listener, recorded]
      exact given

/-- The greatest value of an integer that has to stay below another one. -/
theorem reports_best_of_build_pair :
    ∃ (s : Store) (spec : SearchSpec) (context : Context NoReporter) (t : SearchTree)
      (solution : Solution) (best : Int), s.Reachable ∧ spec.goal = .maximize ∧
      spec.cost = some ⟨0⟩ ∧ spec.Thorough Names.empty s context t ∧
      (t.run ((spec.build Names.empty s context).start t)).1.found = true ∧
      (t.run ((spec.build Names.empty s context).start t)).2.context.listener.last =
        some solution ∧
      s.Satisfies (s.restrict solution.value?) ∧ solution.cost = some best ∧
      (∀ other, s.Attains ⟨0⟩ other → other ≤ best) ∧ 2 ≤ best := by
  let s := StoreOperation.applyAll Store.empty
    [.declareInt "x" 0 3, .declareInt "y" 0 3, .impose (.lessThan ⟨0⟩ ⟨1⟩)]
  let spec : SearchSpec := ⟨.maximize, some ⟨0⟩,
    some (.leaf .int ⟨[⟨0⟩, ⟨1⟩], some .smallest, some .middle, .complete⟩)⟩
  let context : Context NoReporter :=
    Context.ofListener { (Listener.all none : Listener NoReporter) with cost := some ⟨0⟩ }
  let t := SearchTree.ofStages (some ⟨2⟩)
    [⟨⟨.int, [⟨0⟩, ⟨1⟩], .smallest, .middle, .complete, .middleOut⟩, .explicit⟩]
  have reached : s.Reachable := by
    apply Store.Reachable.empty.applyAll
    simp [StoreOperation.InRange, Signed64.InRange, Signed64.least, Signed64.greatest]
  have thorough : spec.Thorough Names.empty s context t :=
    ⟨rfl, SearchTree.complete_ofStages (by simp), rfl,
      Listener.endless_of_reporter_none rfl rfl rfl⟩
  have labels : ∀ var : VarId, var.index < s.size → var ∈ t.vars := by
    have vars : t.vars = [⟨0⟩, ⟨1⟩] := rfl
    rintro ⟨i⟩ inside
    have two : i < 2 := inside
    rw [vars]
    obtain rfl | rfl : i = 0 ∨ i = 1 := by omega
    · simp
    · simp
  have attains : s.Attains ⟨0⟩ 2 := by
    refine ⟨fun var => if var = ⟨0⟩ then some (.int 2) else
      if var = ⟨1⟩ then some (.int 3) else none, ⟨?_, ?_⟩, rfl⟩
    · rintro ⟨_ | _ | i⟩
      · exact ⟨.int 2, rfl, IntDomain.mem_interval.2 (by decide : (0 : Int) ≤ 2 ∧ (2 : Int) ≤ 3)⟩
      · exact ⟨.int 3, rfl, IntDomain.mem_interval.2 (by decide : (0 : Int) ≤ 3 ∧ (3 : Int) ≤ 3)⟩
      · rfl
    · intro imposed member
      obtain rfl : imposed = ⟨0, .lessThan ⟨0⟩ ⟨1⟩⟩ := List.mem_singleton.1 member
      exact Constraint.holds_lessThan_iff.2 ⟨2, 3, rfl, rfl, by decide⟩
  have satisfiable : s.Satisfiable := attains.imp fun _ => And.left
  obtain ⟨found, best⟩ :=
    reports_best_of_build (v := ⟨"x", .int⟩) reached rfl rfl rfl (by decide) thorough rfl labels
  obtain ⟨solution, best, last, -, satisfies, cost, -, greatest⟩ := best satisfiable
  exact ⟨s, spec, context, t, solution, best, reached, rfl, rfl, thorough, found.2 satisfiable,
    last, satisfies, cost, greatest, greatest 2 attains⟩

end SearchSpec

end StagedSearch
