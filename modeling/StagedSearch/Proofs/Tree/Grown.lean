/-
# Trees that grow

A tree that was grown is numbered in the order of its growth, so that a parent is always older
than its children. This alone makes the counted-down walks come to an end by themselves: the
climb along the parents reaches the root, and the visits from the root list every node once.
Both are read off the two descriptions of a tree that do not count, `Climb` and `Listing`.

Adding a node changes one list of children, at its end. So a listing of the smaller tree becomes
one of the larger tree with one more entry for each time that the parent is listed; where in the
listing the entry stands does not matter here.
-/

import StagedSearch.Proofs.Tree.Wiring

namespace StagedSearch

namespace SearchTree

variable {t : SearchTree} {node : SearchNode} {parent : Nat}

theorem lt_size_of_node? {id : Nat} (here : t.node? id = some node) : id < t.size :=
  (Array.getElem?_eq_some_iff.1 here).1

theorem exists_node?_of_lt {id : Nat} (inside : id < t.size) : ∃ node, t.node? id = some node :=
  ⟨_, Array.getElem?_eq_getElem inside⟩

/-! ## Adding a node -/

theorem push_fst (t : SearchTree) (node : SearchNode) (link : Option NodeId) :
    (t.push node link).1 = t.size := by
  cases link <;> rfl

theorem node?_push_none (node : SearchNode) (id : Nat) :
    (empty.push node none).2.node? id =
      if id = 0 then some { node with parent := none } else none := by
  unfold push node? empty
  simp only [Array.getElem?_push, List.size_toArray, List.length_nil]
  split <;> simp

theorem node?_push (older : parent < t.size) (node : SearchNode) (id : Nat) :
    (t.push node (some parent)).2.node? id =
      if id = t.size then some { node with parent := some parent }
      else if id = parent then
        (t.node? id).map fun n => { n with children := n.children ++ [t.size] }
      else t.node? id := by
  unfold push node?
  simp only [Array.getElem?_modify, Array.getElem?_push]
  unfold size at *
  grind

theorem parent?_push (older : parent < t.size) (node : SearchNode) (id : Nat) :
    (t.push node (some parent)).2.parent? id =
      if id = t.size then some parent else t.parent? id := by
  unfold parent?
  rw [node?_push older]
  split
  · rfl
  · split
    · cases t.node? id <;> rfl
    · rfl

theorem children_push (older : parent < t.size) (leaf : node.children = []) (id : Nat) :
    (t.push node (some parent)).2.children id =
      if id = parent then t.children id ++ [t.size] else t.children id := by
  have outside : t.node? t.size = none := Array.getElem?_eq_none (Nat.le_refl _)
  unfold children
  rw [node?_push older]
  by_cases new : id = t.size
  · subst new
    rw [if_pos rfl, if_neg (Nat.ne_of_gt older), outside]
    exact leaf
  · rw [if_neg new]
    by_cases own : id = parent
    · subst own
      obtain ⟨n, here⟩ := exists_node?_of_lt older
      simp [here]
    · rw [if_neg own, if_neg own]

/-! ## Parents and children -/

/-- A parent is older than its children. -/
theorem Grown.parent_lt (grown : t.Grown) {id : Nat} (above : t.parent? id = some parent) :
    parent < id ∧ id < t.size := by
  induction grown generalizing id parent with
  | empty => cases above
  | root =>
    rw [parent?, node?_push_none] at above
    split at above <;> cases above
  | child _ older _ ih =>
    rw [parent?_push older] at above
    rw [size_push]
    split at above
    · rename_i new
      cases above
      omega
    · have := ih above
      omega

/-- The children of a node are those nodes whose parent it is. -/
theorem Grown.mem_children_iff (grown : t.Grown) {id child : Nat} :
    child ∈ t.children id ↔ t.parent? child = some id := by
  induction grown generalizing id child with
  | empty => simp [children, parent?, node?, SearchTree.empty]
  | root leaf =>
    simp only [children, parent?, node?_push_none]
    by_cases here : id = 0 <;> by_cases there : child = 0 <;> simp [here, there, leaf]
  | @child t parent _ grown older leaf ih =>
    have fresh : t.parent? t.size = none := by
      simp [parent?, node?, size]
    rw [children_push older leaf, parent?_push older]
    by_cases new : child = t.size
    · subst new
      have absent : t.size ∉ t.children id := by
        rw [ih, fresh]
        simp
      rw [if_pos rfl]
      split
      · simp_all
      · rename_i other
        simp [absent, Ne.symm other]
    · rw [if_neg new, ← ih]
      split <;> simp [new]

/-! ## The climb to the root -/

/-- Along parents that are older, the climb from a link is over before the steps are. -/
theorem Grown.climb_above (grown : t.Grown) {steps : Nat} {link : Option NodeId}
    (enough : ∀ id : Nat, link = some id → id < steps) : t.Climb link (t.above steps link) := by
  induction steps generalizing link with
  | zero =>
    cases link with
    | none => exact .top
    | some id => exact absurd (enough id rfl) (Nat.not_lt_zero _)
  | succ steps ih =>
    cases link with
    | none => exact .top
    | some id =>
      refine .step (ih fun higher above => ?_)
      have := grown.parent_lt above
      have := enough id rfl
      omega

/-- The nodes above a node are met on the climb from its parent to the root. -/
theorem Grown.climb (grown : t.Grown) (id : Nat) : t.Climb (t.parent? id) (t.ancestors id) :=
  grown.climb_above fun _ above => have := grown.parent_lt above; this.1.trans this.2

/-- The nodes above a child are its parent and those above its parent. -/
theorem Grown.ancestors_child (grown : t.Grown) {id child : Nat} (below : child ∈ t.children id) :
    t.ancestors child = id :: t.ancestors id := by
  have climb := grown.climb child
  rw [grown.mem_children_iff.1 below] at climb
  exact climb.unique (.step (grown.climb id))

/-- Above the root there is nothing. -/
theorem Grown.ancestors_zero (grown : t.Grown) : t.ancestors 0 = [] := by
  have climb := grown.climb 0
  cases above : t.parent? 0 with
  | none =>
    rw [above] at climb
    exact climb.unique .top
  | some parent => exact absurd (grown.parent_lt above).1 (Nat.not_lt_zero _)

/-! ## The visits from the root -/

theorem Listing.append {ids ids' first second : List NodeId} (left : t.Listing ids first)
    (right : t.Listing ids' second) : t.Listing (ids ++ ids') (first ++ second) := by
  induction left with
  | nil => exact right
  | cons children _ _ ih =>
    rw [List.cons_append, List.cons_append, List.append_assoc]
    exact .cons children ih

/-- Visits that are as many as a listing is long come to the listing. -/
theorem visit_of_listing {visits : Nat} {stack all : List NodeId} (listing : t.Listing stack all)
    (enough : all.length ≤ visits) : t.visit visits stack = all := by
  induction visits generalizing stack all with
  | zero =>
    rw [List.eq_nil_of_length_eq_zero (Nat.le_zero.1 enough)]
    cases stack <;> rfl
  | succ visits ih =>
    cases listing with
    | nil => rfl
    | cons children siblings =>
      rw [visit, ih (children.append siblings)]
      simpa using enough

theorem Listing.leaf {id : NodeId} (none : t.children id = []) : t.Listing [id] [id] := by
  have children : t.Listing (t.children id) [] := by
    rw [none]
    exact .nil
  exact .cons children .nil

/-- A listing has one more entry for each time that it lists the parent of a new node. -/
theorem Listing.push {ids all : List NodeId} (listing : t.Listing ids all)
    (older : parent < t.size) (leaf : node.children = []) :
    ∃ longer, (t.push node (some parent)).2.Listing ids longer ∧
      longer.Perm (all ++ List.replicate (all.count parent) t.size) := by
  have new : (t.push node (some parent)).2.Listing [t.size] [t.size] := by
    refine .leaf ?_
    rw [children_push older leaf, if_neg (Nat.ne_of_gt older)]
    simp [children, node?, size]
  induction listing with
  | nil => exact ⟨[], .nil, .rfl⟩
  | @cons id rest below later _ _ ihChildren ihSiblings =>
    obtain ⟨below', children, perm⟩ := ihChildren
    obtain ⟨later', siblings, permLater⟩ := ihSiblings
    obtain ⟨inner, children', permInner⟩ : ∃ inner,
        (t.push node (some parent)).2.Listing ((t.push node (some parent)).2.children id) inner ∧
        inner.Perm (below ++ List.replicate ((id :: below).count parent) t.size) := by
      rw [children_push older leaf]
      by_cases own : id = parent
      · rw [if_pos own, own, List.count_cons_self, List.replicate_succ', ← List.append_assoc]
        exact ⟨_, (own ▸ children).append new, perm.append_right _⟩
      · rw [if_neg own, List.count_cons_of_ne own]
        exact ⟨_, children, perm⟩
    refine ⟨_, .cons children' siblings, List.perm_iff_count.2 fun other => ?_⟩
    have inside := permInner.count_eq other
    have after := permLater.count_eq other
    simp only [List.count_cons, List.count_append, List.count_replicate] at inside after ⊢
    grind

/-- The nodes from the root have a listing, in which each node is once. -/
theorem Grown.exists_listing (grown : t.Grown) :
    ∃ all, t.Listing t.root?.toList all ∧ all.Perm (List.range t.size) := by
  induction grown with
  | empty => exact ⟨[], .nil, .rfl⟩
  | @root node leaf =>
    have none : (SearchTree.empty.push node none).2.children 0 = [] := by
      rw [children, node?_push_none]
      exact leaf
    refine ⟨[0], ?_, .rfl⟩
    rw [root?_of_size_pos (by simp)]
    exact .leaf none
  | @child t parent node _ older leaf ih =>
    obtain ⟨all, listing, perm⟩ := ih
    obtain ⟨longer, listing', perm'⟩ := listing.push older leaf
    rw [root?_of_size_pos (by omega)] at listing'
    refine ⟨longer, ?_, perm'.trans ?_⟩
    · rw [root?_of_size_pos (by simp)]
      exact listing'
    · have once : all.count parent = 1 := by
        rw [perm.count_eq, List.count_eq_one_of_mem List.nodup_range (List.mem_range.2 older)]
      rw [once, size_push, List.range_succ]
      exact perm.append_right _

/-- The visits from the root are the listing of the nodes. -/
theorem Grown.listing_preOrder (grown : t.Grown) : t.Listing t.root?.toList t.preOrder := by
  obtain ⟨all, listing, perm⟩ := grown.exists_listing
  have length : all.length = t.size := by rw [perm.length_eq, List.length_range]
  rw [preOrder, visit_of_listing listing length.le]
  exact listing

/-- Every node is visited once. -/
theorem Grown.preOrder_perm (grown : t.Grown) : t.preOrder.Perm (List.range t.size) := by
  obtain ⟨all, listing, perm⟩ := grown.exists_listing
  rwa [grown.listing_preOrder.unique listing]

theorem Grown.mem_preOrder_iff (grown : t.Grown) {id : Nat} : id ∈ t.preOrder ↔ id < t.size := by
  rw [grown.preOrder_perm.mem_iff, List.mem_range]

/-! ## Trees that are built -/

theorem Grown.pushStages (grown : t.Grown) (bound : Option VarId) (stages : List Stage)
    {link : Option NodeId} (older : ∀ id : Nat, link = some id → id < t.size)
    (first : link = none → t = SearchTree.empty) :
    (pushStages bound stages link t).Grown := by
  induction stages generalizing t link with
  | nil => exact grown
  | cons stage rest ih =>
    -- the node that was added last is the parent of the next one
    have last {node : SearchNode} (id : Nat) (newest : some (t.push node link).1 = some id) :
        id < (t.push node link).2.size := by
      rw [push_fst] at newest
      rw [size_push, ← Option.some.inj newest]
      exact Nat.lt_succ_self _
    cases link with
    | none =>
      obtain rfl := first rfl
      exact ih (.root rfl) last nofun
    | some parent => exact ih (.child grown (older parent rfl) rfl) last nofun

theorem grown_ofStages (bound : Option VarId) (stages : List Stage) :
    (ofStages bound stages).Grown :=
  Grown.empty.pushStages bound stages nofun fun _ => rfl

end SearchTree

/-- A tree that is built is grown. -/
theorem SearchSpec.grown_of_build {ρ : Type} [Reporter ρ] {spec : SearchSpec} {names : Names}
    {s : Store} {context : Context ρ} {t : SearchTree}
    (outcome : (spec.build names s context).outcome = .ok (.tree t)) : t.Grown := by
  obtain ⟨stages, -, objective, -, -, -, rfl, -⟩ := exists_of_build outcome
  exact SearchTree.grown_ofStages _ stages

end StagedSearch
