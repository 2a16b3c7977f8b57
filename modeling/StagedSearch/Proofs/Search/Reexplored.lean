/-
# Trees with other explorations

Decorators leave candidates out, and change nothing else. So a tree and the same tree without
decorators are explored in the same frames, at the same nodes, and what is found in the first one
is found in the second one, in the same order. What is left out depends on the decorators, of
which nothing is assumed here.
-/

import StagedSearch.Proofs.Search.Ways

namespace StagedSearch

/-- A decorator that is the only one decides alone. -/
theorem Decorator.stepAll?_singleton (decorator : Decorator) (path : PathState)
    (index size : Nat) :
    stepAll? [decorator] path index size = decorator.step? path index size := by
  rw [stepAll?, List.foldlM_cons]
  exact bind_pure _

namespace SearchTree

variable {t : SearchTree} {f : NodeId → Exploration → Exploration} {id : NodeId}
  {node : SearchNode}

theorem node?_reexplore (f : NodeId → Exploration → Exploration) (t : SearchTree) (id : NodeId) :
    (t.reexplore f).node? id = (t.node? id).map fun node =>
      { node with
        search := { node.search with exploration := f id node.search.exploration } } := by
  unfold reexplore node?
  rw [Array.getElem?_mapIdx]

theorem exists_of_node?_reexplore (here : (t.reexplore f).node? id = some node) :
    ∃ before, t.node? id = some before ∧ node =
      { before with
        search := { before.search with exploration := f id before.search.exploration } } := by
  rw [node?_reexplore] at here
  obtain ⟨before, found, rfl⟩ := Option.map_eq_some_iff.1 here
  exact ⟨before, found, rfl⟩

theorem eq_of_node? {t t' : SearchTree} (same : ∀ id, t.node? id = t'.node? id) : t = t' := by
  obtain ⟨nodes⟩ := t
  obtain ⟨nodes'⟩ := t'
  exact congrArg SearchTree.mk (Array.ext_getElem? same)

theorem size_reexplore (f : NodeId → Exploration → Exploration) (t : SearchTree) :
    (t.reexplore f).size = t.size :=
  Array.size_mapIdx

theorem root?_reexplore : (t.reexplore f).root? = t.root? := by
  unfold root? reexplore
  simp

/-- Exploring otherwise twice is exploring otherwise once. -/
theorem reexplore_reexplore (f g : NodeId → Exploration → Exploration) (t : SearchTree) :
    (t.reexplore f).reexplore g = t.reexplore fun id before => g id (f id before) := by
  refine eq_of_node? fun id => ?_
  simp only [node?_reexplore, Option.map_map]
  rfl

theorem plain_explore (t : SearchTree) (id : NodeId) (exploration : Exploration) :
    (t.explore id exploration).plain = t.plain :=
  reexplore_reexplore _ _ t

theorem vars_reexplore : (t.reexplore f).vars = t.vars := by
  have same : (t.reexplore f).nodes.toList.map SearchNode.vars =
      t.nodes.toList.map SearchNode.vars := by
    refine List.ext_getElem? fun id => ?_
    have other := congrArg (Option.map SearchNode.vars) (node?_reexplore f t id)
    simp only [List.getElem?_map, Array.getElem?_toList]
    exact other.trans (Option.map_map _ _ _)
  unfold vars
  rw [List.flatMap_def, same, List.flatMap_def]

theorem frameBound_reexplore (s : Store) : (t.reexplore f).frameBound s = t.frameBound s := by
  unfold frameBound
  rw [size_reexplore, vars_reexplore]

/-- A tree with other explorations has grown in the same way. -/
theorem Grown.reexplore (grown : t.Grown) : (t.reexplore f).Grown := by
  induction grown with
  | empty => exact .empty
  | @root node leaf =>
    have same : (SearchTree.empty.push node none).2.reexplore f = (SearchTree.empty.push
        { node with
          search := { node.search with exploration := f 0 node.search.exploration } } none).2 := by
      refine eq_of_node? fun id => ?_
      rw [node?_reexplore, node?_push_none, node?_push_none]
      split
      · rename_i first
        subst first
        rfl
      · rfl
    rw [same]
    exact .root leaf
  | @child t parent node grown older leaf ih =>
    have same : (t.push node (some parent)).2.reexplore f = ((t.reexplore f).push
        { node with
          search := { node.search with exploration := f t.size node.search.exploration } }
        (some parent)).2 := by
      refine eq_of_node? fun id => ?_
      rw [node?_reexplore, node?_push older, node?_push (size_reexplore f t ▸ older),
        size_reexplore, node?_reexplore]
      split
      · rename_i last
        subst last
        rfl
      · split
        · cases t.node? id <;> rfl
        · rfl
    rw [same]
    exact .child ih (size_reexplore f t ▸ older) leaf

/-- A run over a tree with other explorations is to find all solutions as well. -/
theorem Enumerates.reexplore {ρ : Type} [Reporter ρ] {st : SearchState ρ}
    (enumerates : t.Enumerates st) (f : NodeId → Exploration → Exploration) :
    (t.reexplore f).Enumerates st where
  grown := enumerates.grown.reexplore
  nodes := enumerates.nodes.trans (size_reexplore f t).symm
  reached := enumerates.reached
  boundless node member := by
    obtain ⟨id, here⟩ := Array.mem_iff_getElem?.1 member
    obtain ⟨before, found, rfl⟩ := exists_of_node?_reexplore here
    exact enumerates.boundless before (Array.mem_of_getElem? found)
  steady id node here := by
    obtain ⟨before, found, rfl⟩ := exists_of_node?_reexplore here
    exact enumerates.steady id before found
  endless := enumerates.endless
  unlimited := enumerates.unlimited

/-! ## Choosing with and without decorators -/

section Choosing

variable {α : Type} {after : Pick → α → α} {below below' : PathState → Store → List α}
  {decorators : List Decorator} {path path' : PathState} {s : Store} {size : Nat}

/-- What is found below candidates begins with one of them. -/
theorem exists_of_mem_choose {index : Nat} {choices : List Choice} {a : α}
    (found : a ∈ choose after below [] path s size index choices) :
    ∃ other u, ∃ b ∈ below path u, index ≤ other ∧ a = after ⟨other, size⟩ b := by
  induction choices generalizing index with
  | nil => cases found
  | cons choice rest ih =>
    have plain : Decorator.stepAll? [] path index size = some path := rfl
    rw [choose_of_admitted plain, List.mem_append] at found
    rcases found with first | later
    · split at first
      · obtain ⟨b, member, rfl⟩ := List.mem_map.1 first
        exact ⟨index, _, b, member, Nat.le_refl _, rfl⟩
      · cases first
    · obtain ⟨other, u, b, member, from_next, rfl⟩ := ih later
      exact ⟨other, u, b, member, Nat.le_of_succ_le from_next, rfl⟩

/-- With decorators no more is found than without. -/
theorem choose_sublist (fewer : ∀ next u, (below next u).Sublist (below' path' u))
    (index : Nat) (choices : List Choice) :
    (choose after below decorators path s size index choices).Sublist
      (choose after below' [] path' s size index choices) := by
  induction choices generalizing index with
  | nil => exact .slnil
  | cons choice rest ih =>
    have plain : Decorator.stepAll? [] path' index size = some path' := rfl
    rw [choose_of_admitted plain]
    cases step : Decorator.stepAll? decorators path index size with
    | none =>
      rw [choose_of_refused step]
      exact List.nil_sublist _
    | some next =>
      rw [choose_of_admitted step]
      refine List.Sublist.append ?_ (ih _)
      split
      · exact (fewer next _).map _
      · exact .slnil

end Choosing

/-! ## The ways of the tree without decorators -/

section Plain

variable {s : Store} {var : VarId}

theorem plain_ways_of_missing (none : t.node? id = none) (frames : Nat) (path : PathState)
    (s : Store) : t.plain.ways frames id path s = [] :=
  ways_of_missing (by rw [plain, node?_reexplore, none]; rfl) frames path s

theorem node?_plain (here : t.node? id = some node) : t.plain.node? id =
    some { node with search := { node.search with exploration := .complete } } := by
  rw [plain, node?_reexplore, here]
  rfl

theorem plain_ways_of_decided (here : t.node? id = some node)
    (decided : node.search.variableOrder.select? s node.vars = none) (frames : Nat)
    (path : PathState) : t.plain.ways (frames + 1) id path s = t.plain.waysOnward id frames s :=
  ways_of_decided (node?_plain here) decided frames path

theorem plain_ways_of_picked (here : t.node? id = some node)
    (picked : node.search.variableOrder.select? s node.vars = some var) (frames : Nat)
    (path : PathState) : t.plain.ways (frames + 1) id path s =
      choose Way.after (t.plain.ways frames id) [] path s (listed node s var).size 0
        (listed node s var).candidates.toList :=
  ways_of_picked (node?_plain here) picked frames path

theorem children_plain (t : SearchTree) (id : NodeId) : t.plain.children id = t.children id := by
  unfold children
  rw [plain, node?_reexplore]
  cases t.node? id <;> rfl

/-- The ways with decorators are among those without, in the same order. -/
theorem ways_sublist_plain (t : SearchTree) (frames : Nat) (id : NodeId) (path path' : PathState)
    (s : Store) : (t.ways frames id path s).Sublist (t.plain.ways frames id path' s) := by
  induction frames generalizing id path path' s with
  | zero => exact .slnil
  | succ frames ih =>
    cases here : t.node? id with
    | none =>
      rw [ways_of_missing here]
      exact List.nil_sublist _
    | some node =>
      cases picked : node.search.variableOrder.select? s node.vars with
      | none =>
        rw [ways_of_decided here picked, plain_ways_of_decided here picked]
        unfold waysOnward
        rw [children_plain]
        cases (t.children id).head? with
        | none => exact List.Sublist.refl _
        | some child => exact (ih child .start .start s).map _
      | some var =>
        rw [ways_of_picked here picked, plain_ways_of_picked here picked]
        exact choose_sublist (fun next u => ih id next path' u) 0 _

/-- A run has no ways, with decorators or without, or those from its root. -/
theorem waysFrom_cases (t : SearchTree) (s : Store) :
    (t.waysFrom s = [] ∧ t.plain.waysFrom s = []) ∨ ∃ root, t.root? = some root ∧
      t.waysFrom s = t.ways (t.frameBound s) root .start s.pushLevel.consistency.2 ∧
      t.plain.waysFrom s =
        t.plain.ways (t.frameBound s) root .start s.pushLevel.consistency.2 := by
  have root : t.plain.root? = t.root? := root?_reexplore
  have bound : t.plain.frameBound s = t.frameBound s := frameBound_reexplore s
  unfold waysFrom
  rw [root, bound]
  cases t.root? with
  | none => exact .inl ⟨rfl, rfl⟩
  | some root =>
    dsimp only
    split
    · exact .inr ⟨root, rfl, rfl, rfl⟩
    · exact .inl ⟨rfl, rfl⟩

theorem waysFrom_sublist_plain (t : SearchTree) (s : Store) :
    (t.waysFrom s).Sublist (t.plain.waysFrom s) := by
  rcases t.waysFrom_cases s with ⟨none, -⟩ | ⟨root, -, ways, ways'⟩
  · rw [none]
    exact List.nil_sublist _
  · rw [ways, ways']
    exact t.ways_sublist_plain _ root .start .start _

end Plain

end SearchTree

end StagedSearch
