/-
# The number of solutions

A node writes down how many solutions there are when it hands one over, and the statistics take
what was written by the last node, in pre-order, that has written anything. Only nodes without
children hand over, and a chain has one of them. So in every state of a search over a chain the
counter of its last node is the number of solutions that the listener has accepted, the counters
of all other nodes are zero (`Tallied`), and the statistics agree with the listener.
-/

import StagedSearch.Proofs.Search.Deadline
import StagedSearch.Proofs.Tree.Arrangement
import StagedSearch.Proofs.Tree.Traversal

namespace StagedSearch

namespace Progress

/-- The number of solutions that is written at a node. -/
def solutions (p : Progress) (id : Nat) : Nat :=
  (p[id]?.map fun n => n.counters.solutions).getD 0

theorem solutions_counters (p : Progress) (id : Nat) :
    (p.counters id).solutions = p.solutions id := by
  unfold solutions counters
  cases p[id]? <;> rfl

theorem solutions_modifyNode (p : Progress) (id other : Nat) {f : NodeProgress → NodeProgress}
    (keeps : ∀ n, (f n).counters.solutions = n.counters.solutions) :
    (p.modifyNode id f).solutions other = p.solutions other := by
  unfold solutions
  rw [SearchState.getElem?_modifyNode]
  split
  · cases p[other]? with
    | none => rfl
    | some n => exact keeps n
  · rfl

theorem solutions_start (p : Progress) (deadline : Option Nat) (ids : List NodeId) (id : Nat) :
    (p.start deadline ids).solutions id = p.solutions id := by
  unfold start
  induction ids generalizing p with
  | nil => rfl
  | cons first rest ih =>
    exact (ih _).trans (p.solutions_modifyNode first id fun _ => rfl)

theorem solutions_ofTree (t : SearchTree) (id : Nat) : (ofTree t).solutions id = 0 := by
  unfold solutions ofTree
  rw [Array.getElem?_map]
  cases t.nodes[id]? <;> rfl

end Progress

namespace SearchState

variable {ρ : Type} {last : Nat} {st : SearchState ρ}

/-- The last node has written how many solutions there are, and no other node has written
anything. -/
structure Tallied (last : Nat) (st : SearchState ρ) : Prop where
  inside : last < st.progress.size
  written : st.progress.solutions last = st.accepted
  others : ∀ id, id ≠ last → st.progress.solutions id = 0

theorem Tallied.of_eq (tallied : Tallied last st) {st' : SearchState ρ}
    (progress : st'.progress = st.progress) (accepted : st'.accepted = st.accepted) :
    Tallied last st' := by
  obtain ⟨inside, written, others⟩ := tallied
  rw [← progress] at inside written others
  exact ⟨inside, written.trans accepted.symm, others⟩

theorem Tallied.modifyNode (tallied : Tallied last st) (id : Nat)
    {f : NodeProgress → NodeProgress}
    (keeps : ∀ n, (f n).counters.solutions = n.counters.solutions) :
    Tallied last { st with progress := st.progress.modifyNode id f } where
  inside := Nat.lt_of_lt_of_eq tallied.inside Array.size_modify.symm
  written := (st.progress.solutions_modifyNode id last keeps).trans tallied.written
  others other apart :=
    (st.progress.solutions_modifyNode id other keeps).trans (tallied.others other apart)

theorem Tallied.setState (tallied : Tallied last st) (id : Nat) (state : NodeState) :
    Tallied last (st.setState id state) :=
  tallied.modifyNode id (by intro _; rfl)

theorem Tallied.count (tallied : Tallied last st) (id : Nat) {f : Counters → Counters}
    (keeps : ∀ c, (f c).solutions = c.solutions) : Tallied last (st.count id f) :=
  tallied.modifyNode id fun n => keeps n.counters

theorem Tallied.branch (tallied : Tallied last st) (id : Nat) (var : VarId) :
    Tallied last (st.branch id var).2 := by
  unfold SearchState.branch
  split
  · exact tallied
  · exact tallied.modifyNode id (by intro _; rfl)

theorem Tallied.expired (tallied : Tallied last st) (id : Nat) :
    Tallied last (st.expired id).2 := by
  unfold SearchState.expired
  split
  · exact tallied
  · exact tallied.of_eq rfl rfl

theorem Tallied.decide (tallied : Tallied last st) (id : Nat) (bound : Option VarId)
    (choice : Choice) : Tallied last (st.decide id bound choice).2 := by
  have tried : Tallied last (st.tried id bound choice) := by
    apply Tallied.count
    · exact tallied.of_eq rfl rfl
    · intro _
      rfl
  rw [decide_eq]
  split
  · exact tried
  · exact tried.of_eq rfl rfl

/-- The last node writes the number of solutions that there are then. -/
theorem Tallied.acceptAt [Reporter ρ] (tallied : Tallied last st) (node : SearchNode) :
    Tallied last (st.acceptAt last node).2 := by
  obtain ⟨inside, -, others⟩ := tallied.setState last .solutionAtLeaf
  have handed : Tallied last (st.handed last) := by
    refine ⟨Nat.lt_of_lt_of_eq inside Array.size_modify.symm, ?_, fun id apart => ?_⟩
    · show ((st.setState last .solutionAtLeaf).progress.modifyNode last _).solutions last = _
      unfold Progress.solutions
      rw [getElem?_modifyNode, if_pos rfl, Array.getElem?_eq_getElem inside]
      rfl
    · show ((st.setState last .solutionAtLeaf).progress.modifyNode last _).solutions id = 0
      rw [← others id apart]
      unfold Progress.solutions
      rw [getElem?_modifyNode, if_neg apart.symm]
  obtain ⟨-, progress, listener⟩ := setIncumbent_keeps (st.handed last) node
  exact handed.of_eq progress (congrArg Listener.count listener)

end SearchState

namespace SearchTree

variable {ρ : Type} [Reporter ρ] {t : SearchTree} {st : SearchState ρ}

/-- In a search over a chain, the last node counts the solutions. -/
theorem IsChain.kept_tallied (chain : t.IsChain) :
    SearchState.Kept t (SearchState.Tallied (t.size - 1) : SearchState ρ → Prop) where
  setState _ id state tallied := tallied.setState id state
  count _ id _ keeps tallied := tallied.count id keeps
  branch _ id var tallied := tallied.branch id var
  expired _ id tallied := tallied.expired id
  timeOut _ tallied := tallied.of_eq rfl rfl
  decide _ id bound choice tallied := tallied.decide id bound choice
  popLevel _ tallied := tallied.of_eq rfl rfl
  acceptAt st id node here last tallied := by
    obtain rfl : id = t.size - 1 := Nat.eq_sub_of_add_eq (chain.succ_eq_size here last)
    exact tallied.acceptAt node

/-- A first run over a chain ends with the solutions counted at the last node. -/
theorem IsChain.tallied_run (chain : t.IsChain) (nonempty : 0 < t.size)
    (fresh : st.progress = Progress.ofTree t) (none : st.context.listener.count = 0) :
    SearchState.Tallied (t.size - 1) (t.run st).2 := by
  have started : SearchState.Tallied (t.size - 1) (SearchState.started t st) := by
    have accepted : (SearchState.started t st).accepted = 0 :=
      (congrArg Listener.count (SearchState.deadline?_context st.context).1).trans none
    have written (id : Nat) : (SearchState.started t st).progress.solutions id = 0 := by
      show (st.progress.start _ _).solutions id = 0
      rw [Progress.solutions_start, fresh, Progress.solutions_ofTree]
    refine ⟨?_, (written _).trans accepted.symm, fun id _ => written id⟩
    show _ < (st.progress.start _ _).size
    rw [Progress.size_start, fresh]
    exact Nat.lt_of_lt_of_eq (Nat.sub_one_lt_of_lt nonempty) Array.size_map.symm
  obtain ⟨steps, follows⟩ := t.exists_follows st
  have kept := chain.kept_tallied (ρ := ρ)
  cases follows with
  | empty none => exact absurd (root?_eq_none_iff.1 none) (Nat.ne_of_gt nonempty)
  | @inconsistent root found fails =>
    rw [run_of_inconsistent found fails]
    exact kept.popLevel _ (kept.setState _ root .exhausted started)
  | @searched root _ outcome found succeeds course =>
    rw [course.run_eq found succeeds]
    obtain ⟨after, -⟩ := course.invariant kept (kept.setState _ root .labeling started)
    exact kept.popLevel _ (kept.setState _ root _ after)

end SearchTree

namespace SearchStatistics

theorem solutions_foldl_add {nodes : List Counters} (none : ∀ c ∈ nodes, c.solutions = 0)
    (total : SearchStatistics) : (nodes.foldl add total).solutions = total.solutions := by
  have bare : (nodes.map Counters.solutions).filter (0 < ·) = [] := by
    rw [List.filter_eq_nil_iff, List.forall_mem_map]
    intro c member
    simp [none c member]
  rw [solutions_foldl_add_eq_getLast?, bare]
  rfl

/-- If the last node of a chain has counted the solutions, then the statistics have their
number. -/
theorem solutions_aggregate {ρ : Type} {t : SearchTree} {st : SearchState ρ} (chain : t.IsChain)
    (nonempty : 0 < t.size) (tallied : SearchState.Tallied (t.size - 1) st) :
    (aggregate t st.progress).solutions = st.accepted := by
  obtain ⟨last, size⟩ := Nat.exists_eq_add_of_lt nonempty
  rw [Nat.zero_add] at size
  rw [size, Nat.add_sub_cancel] at tallied
  have before : ∀ c ∈ (List.range last).map st.progress.counters, c.solutions = 0 := by
    intro c member
    obtain ⟨id, inside, rfl⟩ := List.mem_map.1 member
    rw [Progress.solutions_counters]
    exact tallied.others id (Nat.ne_of_lt (List.mem_range.1 inside))
  unfold aggregate
  rw [chain.preOrder, size, List.range_succ, List.map_append, List.foldl_append]
  show (if 0 < (st.progress.counters last).solutions then (st.progress.counters last).solutions
    else _) = _
  rw [solutions_foldl_add before, Progress.solutions_counters, tallied.written]
  split
  · rfl
  · rename_i none
    exact (Nat.eq_zero_of_not_pos none).symm

end SearchStatistics

/-- The statistics of a first run over a tree that was built have the number of solutions. -/
theorem SearchSpec.solutions_aggregate_of_build {ρ : Type} [Reporter ρ] {spec : SearchSpec}
    {names : Names} {s : Store} {context : Context ρ} {t : SearchTree} {st : SearchState ρ}
    (built : (spec.build names s context).outcome = .ok (.tree t))
    (fresh : st.progress = Progress.ofTree t) (none : st.context.listener.count = 0) :
    (SearchStatistics.aggregate t (t.run st).2.progress).solutions =
      (t.run st).2.context.listener.count := by
  have nonempty := size_pos_of_build built
  obtain ⟨stages, -, objective, -, -, -, rfl, -⟩ := exists_of_build built
  have chain := SearchTree.isChain_ofStages (objective.map Objective.bound) stages
  exact SearchStatistics.solutions_aggregate chain nonempty
    (chain.tallied_run nonempty fresh none)

end StagedSearch
