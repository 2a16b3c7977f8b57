/-
# Stages and their chain

The tree that some stages become: each stage is a node, in order, and the only child of the
one before it. If the stages work on a store, then the tree is one that the engine can search
there, and the progress before the first run has orders that suit it.
-/

import StagedSearch.Proofs.Tree.Compile
import StagedSearch.Tree.Shape

namespace StagedSearch

/-! ## The chain of some stages -/

namespace SearchTree

/-- The node that a stage becomes as number `i` of `total`, when `size` of them are there. -/
def chainNode (bound : Option VarId) (total size i : Nat) (stage : Stage) : SearchNode :=
  { SearchNode.ofSearch stage.search stage.role with
    parent := if i = 0 then none else some (i - 1)
    children := if i + 1 < size then [i + 1] else []
    bound
    optimizing := bound.isSome && decide (i + 1 = total) }

/-- The tree is the chain of the first stages of a list. -/
structure Chains (bound : Option VarId) (stages : List Stage) (t : SearchTree) : Prop where
  size : t.size ≤ stages.length
  nodes : ∀ i < t.size, t.node? i = (stages[i]?).map (chainNode bound stages.length t.size i)

variable {bound : Option VarId} {stages : List Stage} {t : SearchTree}

def nextParent (t : SearchTree) : Option NodeId := if t.size = 0 then none else some (t.size - 1)

/-- One more stage makes the chain one longer. -/
theorem Chains.push (chains : Chains bound stages t) {stage : Stage} {rest : List Stage}
    (next : stages.drop t.size = stage :: rest) :
    (t.push
        { SearchNode.ofSearch stage.search stage.role with
          bound
          optimizing := bound.isSome && rest.isEmpty } t.nextParent).1 = t.size ∧
      Chains bound stages
        (t.push
          { SearchNode.ofSearch stage.search stage.role with
            bound
            optimizing := bound.isSome && rest.isEmpty } t.nextParent).2 := by
  have here : stages[t.size]? = some stage := by
    rw [← List.head?_drop, next, List.head?_cons]
  have length : stages.length = t.size + 1 + rest.length := by
    have := congrArg List.length next
    simp only [List.length_drop, List.length_cons] at this
    have := chains.size
    omega
  have last : rest.isEmpty = decide (t.size + 1 = stages.length) := by
    cases rest with
    | nil => simp [length]
    | cons later rest => simp [length]
  refine ⟨by unfold SearchTree.push; split <;> rfl, by rw [size_push]; omega, fun i inside => ?_⟩
  rw [size_push] at inside ⊢
  have before := chains.nodes i
  unfold node? at before ⊢
  unfold SearchTree.push nextParent
  unfold SearchTree.size at *
  by_cases first : t.nodes.size = 0
  · obtain rfl : i = t.nodes.size := by omega
    simp only [if_pos first, Array.getElem?_push_size, here, Option.map_some]
    simp [chainNode, last, first, SearchNode.ofSearch]
  · simp only [if_neg first, Array.getElem?_modify, Array.getElem?_push]
    by_cases own : i = t.nodes.size
    · subst own
      rw [if_neg (by omega), if_pos rfl, here]
      simp [chainNode, last, first, SearchNode.ofSearch]
    · rw [if_neg own, before (by omega)]
      obtain ⟨other, found⟩ : ∃ other, stages[i]? = some other :=
        ⟨_, List.getElem?_eq_getElem (by omega)⟩
      rw [found]
      by_cases above : t.nodes.size - 1 = i
      · subst above
        rw [if_pos rfl]
        simp only [Option.map_some, chainNode, Option.some.injEq, SearchNode.mk.injEq, true_and,
          and_true]
        rw [if_neg (by omega), if_pos (by omega), List.nil_append]
        congr 1
        omega
      · rw [if_neg above]
        simp only [Option.map_some, chainNode, Option.some.injEq, SearchNode.mk.injEq, true_and,
          and_true]
        rw [if_pos (by omega), if_pos (by omega)]

theorem chains_pushStages (chains : Chains bound stages t) {rest : List Stage}
    (next : stages.drop t.size = rest) :
    Chains bound stages (pushStages bound rest t.nextParent t) ∧
      (pushStages bound rest t.nextParent t).size = stages.length := by
  induction rest generalizing t with
  | nil =>
    refine ⟨chains, Nat.le_antisymm chains.size ?_⟩
    show stages.length ≤ t.size
    simpa using next
  | cons stage rest ih =>
    obtain ⟨id, longer⟩ := chains.push next
    have step := ih longer (by
      rw [size_push, ← List.drop_drop, next]
      rfl)
    unfold nextParent at step
    simp only [size_push, Nat.succ_ne_zero, if_false, Nat.add_sub_cancel] at step
    unfold pushStages
    simp only [id]
    exact step

/-- Each stage is the node with its number. -/
theorem node?_ofStages (bound : Option VarId) (stages : List Stage) (i : Nat) :
    (ofStages bound stages).node? i =
      (stages[i]?).map (chainNode bound stages.length stages.length i) := by
  have start : Chains bound stages empty := ⟨Nat.zero_le _, by simp⟩
  obtain ⟨chains, size⟩ := chains_pushStages start (List.drop_zero)
  change Chains bound stages (ofStages bound stages) at chains
  change (ofStages bound stages).size = _ at size
  by_cases inside : i < (ofStages bound stages).size
  · rw [chains.nodes i inside, size]
  · unfold node?
    rw [Array.getElem?_eq_none (by simpa [SearchTree.size] using inside),
      List.getElem?_eq_none (by omega), Option.map_none]

theorem size_ofStages (bound : Option VarId) (stages : List Stage) :
    (ofStages bound stages).size = stages.length := by
  have start : Chains bound stages empty := ⟨Nat.zero_le _, by simp⟩
  exact (chains_pushStages start List.drop_zero).2

/-! ## Searching the chain -/

/-- A node of the chain of some stages is one of the stages. -/
theorem exists_of_node?_ofStages {id : Nat} {node : SearchNode}
    (here : (ofStages bound stages).node? id = some node) :
    ∃ stage ∈ stages, node = chainNode bound stages.length stages.length id stage := by
  rw [node?_ofStages] at here
  obtain ⟨stage, found, rfl⟩ := Option.map_eq_some_iff.1 here
  exact ⟨stage, List.mem_of_getElem? found, rfl⟩

/-- The nodes label the variables of the stages. -/
theorem exists_mem_vars_ofStages {var : VarId} :
    (∃ node ∈ (ofStages bound stages).nodes, var ∈ node.vars) ↔
      ∃ stage ∈ stages, var ∈ stage.search.vars := by
  constructor
  · rintro ⟨node, member, inside⟩
    obtain ⟨id, here⟩ := Array.mem_iff_getElem?.1 member
    have found : (ofStages bound stages).node? id = some node := here
    obtain ⟨stage, listed, rfl⟩ := exists_of_node?_ofStages found
    exact ⟨stage, listed, inside⟩
  · rintro ⟨stage, listed, inside⟩
    obtain ⟨id, found⟩ := List.mem_iff_getElem?.1 listed
    have here : (ofStages bound stages).node? id = _ :=
      (node?_ofStages bound stages id).trans (congrArg (Option.map _) found)
    exact ⟨_, Array.mem_of_getElem? here, inside⟩

/-- What holds of the searches of the stages holds of those of the nodes. -/
theorem forall_ofStages {holds : CompiledSearch → Prop}
    (each : ∀ stage ∈ stages, holds stage.search) :
    ∀ node ∈ (ofStages bound stages).nodes, holds node.search := by
  intro node member
  obtain ⟨id, here⟩ := Array.mem_iff_getElem?.1 member
  have found : (ofStages bound stages).node? id = some node := here
  obtain ⟨stage, listed, rfl⟩ := exists_of_node?_ofStages found
  exact each stage listed

/-- The nodes explore what the stages explore. -/
theorem complete_ofStages (complete : ∀ stage ∈ stages, stage.search.exploration = .complete) :
    ∀ node ∈ (ofStages bound stages).nodes, node.search.exploration = .complete := by
  let whole (c : CompiledSearch) : Prop := c.exploration = .complete
  exact forall_ofStages (show ∀ stage ∈ stages, whole stage.search from complete)

/-- The chain of stages that work on a store can be searched there. -/
theorem searchable_ofStages {s : Store} (works : ∀ stage ∈ stages, stage.search.Works s) :
    (ofStages bound stages).Searchable bound s.declarations where
  children id node here := by
    obtain ⟨stage, -, rfl⟩ := exists_of_node?_ofStages here
    rw [size_ofStages]
    show (if id + 1 < stages.length then [id + 1] else []).head? = _
    split <;> rfl
  bounds id node here := by
    obtain ⟨stage, -, rfl⟩ := exists_of_node?_ofStages here
    rfl
  optimizing id node here last := by
    obtain ⟨stage, -, rfl⟩ := exists_of_node?_ofStages here
    rw [size_ofStages] at last
    simp [chainNode, last]
  takes id node here := by
    obtain ⟨stage, member, rfl⟩ := exists_of_node?_ofStages here
    exact (works stage member).takes

theorem orders_ofTree {s : Store} (works : ∀ stage ∈ stages, stage.search.Works s) :
    (ofStages bound stages).Orders (Progress.ofTree (ofStages bound stages)) := by
  intro id node here
  refine ⟨⟨.ready, none, Counters.zero, node.search.valueOrder⟩, ?_, ?_⟩
  · have found : (ofStages bound stages).nodes[id]? = some node := here
    simp [Progress.ofTree, found]
  · obtain ⟨stage, member, rfl⟩ := exists_of_node?_ofStages here
    exact (works stage member).order

/-- No node has a deadline before the first run. -/
theorem deadlines_ofTree (t : SearchTree) (id : NodeId) :
    (Progress.ofTree t).deadline? id = none := by
  unfold Progress.deadline? Progress.ofTree
  rw [Array.getElem?_map]
  cases t.nodes[id]? <;> rfl

end SearchTree

end StagedSearch
