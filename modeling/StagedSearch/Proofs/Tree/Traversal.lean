/-
# Walks through a tree

The order in which a tree is walked is said in two ways. One is the recursion over the children
of each node, which is `Listing`. The other is a loop over a stack: the top is taken off and
listed, and its children are put on the stack in reverse, so that the first of them comes next.
Neither counts anything, and of an arbitrary tree neither has to end: children may be in a cycle,
or not there at all. In a tree that was grown both end, and they end in the same order, in which
each node is once and stands behind the nodes above it.

The loop goes through the stack from its top, so the stack is in reverse what is left to walk.
That the listing of what is left has become shorter by the node on top is all that a turn of the
loop does, and the induction is on this listing.
-/

import StagedSearch.Proofs.Tree.Grown
import StagedSearch.Search.Outcome

namespace StagedSearch

namespace SearchTree

/-- The loop over a stack, whose top is its last entry, from what it has listed to the order that
it ends with. A loop that goes on forever, or that meets an id without a node, has no order. -/
inductive StackLoop (t : SearchTree) : (stack listed order : List NodeId) → Prop
  | ends {stack listed : List NodeId} (bare : stack.getLast? = none) :
      StackLoop t stack listed listed
  | turn {stack listed order : List NodeId} {id : NodeId} {node : SearchNode}
      (top : stack.getLast? = some id) (here : t.node? id = some node)
      (onward : StackLoop t (stack.dropLast ++ node.children.reverse) (listed ++ [id]) order) :
      StackLoop t stack listed order

end SearchTree

/-- The statistics take the counters of each node once. -/
structure SearchStatistics.TakesEach (t : SearchTree) (p : Progress) : Prop where
  nodes : (aggregate t p).nodes =
    totalSize (fun id => (p.counters id).nodes) (List.range t.size)
  decisions : (aggregate t p).decisions =
    totalSize (fun id => (p.counters id).decisions) (List.range t.size)
  wrongDecisions : (aggregate t p).wrongDecisions =
    totalSize (fun id => (p.counters id).wrongDecisions) (List.range t.size)
  backtracks : (aggregate t p).backtracks =
    totalSize (fun id => (p.counters id).backtracks) (List.range t.size)
  /-- The depth is the greatest of all nodes. -/
  maxDepth : ∀ depth, (aggregate t p).maxDepth ≤ depth ↔
    ∀ id < t.size, (p.counters id).maxDepth ≤ depth
  /-- The number of solutions is the last one in the order that is not zero. -/
  solutions : (aggregate t p).solutions =
    ((t.preOrder.map fun id => (p.counters id).solutions).filter (0 < ·)).getLast?.getD 0

/-- What the walks through a tree come to. -/
structure SearchTree.Traversed (t : SearchTree) : Prop where
  /-- Children are in the order in which they were added. -/
  children : ∀ id, t.children id =
    (List.range t.size).filter fun child => t.parent? child = some id
  /-- The loop over a stack that begins with the root ends, and it has one order. -/
  loop : ∀ order, t.StackLoop t.root?.toList [] order ↔ order = t.preOrder
  /-- So has the recursion over the children. -/
  recursion : ∀ order, t.Listing t.root?.toList order ↔ order = t.preOrder
  once : t.preOrder.Perm (List.range t.size)
  /-- The climb from the parent of a node ends, and meets the nodes above it. -/
  climb : ∀ id above, t.Climb (t.parent? id) above ↔ above = t.ancestors id
  /-- From a node up, the last one is the root. -/
  rooted : ∀ id < t.size, (id :: t.ancestors id).getLast? = some 0
  /-- They are among the nodes before the place of a node. -/
  behind : ∀ before id after, t.preOrder = before ++ id :: after → t.ancestors id ⊆ before
  statistics : ∀ p : Progress, SearchStatistics.TakesEach t p

namespace SearchTree

variable {t : SearchTree}

/-! ## The loop over a stack -/

theorem StackLoop.unique {stack listed first second : List NodeId}
    (left : t.StackLoop stack listed first) (right : t.StackLoop stack listed second) :
    first = second := by
  induction left generalizing second with
  | ends bare =>
    cases right with
    | ends => rfl
    | turn top => cases bare.symm.trans top
  | turn top here _ ih =>
    cases right with
    | ends bare => cases bare.symm.trans top
    | turn top' here' onward =>
      cases top.symm.trans top'
      cases here.symm.trans here'
      exact ih onward

theorem Listing.eq_nil {ids : List NodeId} (listing : t.Listing ids []) : ids = [] := by
  cases listing
  rfl

/-- What is listed first is the first node to walk, and its children are walked next. -/
theorem Listing.exists_cons {ids rest : List NodeId} {id : NodeId}
    (listing : t.Listing ids (id :: rest)) :
    ∃ siblings, ids = id :: siblings ∧ t.Listing (t.children id ++ siblings) rest := by
  cases listing with
  | cons children siblings => exact ⟨_, rfl, children.append siblings⟩

/-- The loop lists what is left to walk, if all of it is there. -/
theorem Listing.stackLoop {stack listed rest : List NodeId}
    (listing : t.Listing stack.reverse rest) (inside : ∀ id ∈ rest, id < t.size) :
    t.StackLoop stack listed (listed ++ rest) := by
  induction rest generalizing stack listed with
  | nil =>
    rw [List.reverse_eq_nil_iff.1 listing.eq_nil, List.append_nil]
    exact .ends rfl
  | cons id rest ih =>
    obtain ⟨siblings, eq, next⟩ := listing.exists_cons
    obtain ⟨node, here⟩ := exists_node?_of_lt (inside id List.mem_cons_self)
    have onward : listed ++ id :: rest = (listed ++ [id]) ++ rest := List.append_cons listed id rest
    rw [List.reverse_eq_cons_iff.1 eq, onward]
    apply StackLoop.turn List.getLast?_concat here
    rw [List.dropLast_concat]
    apply ih
    -- the children were reversed to go on the stack, and the stack is read in reverse
    · rw [List.reverse_append, List.reverse_reverse, List.reverse_reverse]
      rwa [children, here] at next
    · intro later member
      exact inside later (List.mem_cons_of_mem id member)

/-- From the root the loop ends with the order of the visits. -/
theorem Grown.stackLoop_preOrder (grown : t.Grown) : t.StackLoop t.root?.toList [] t.preOrder := by
  have single : t.root?.toList.reverse = t.root?.toList := by cases t.root? <;> rfl
  apply Listing.stackLoop
  · rw [single]
    exact grown.listing_preOrder
  · intro id member
    exact grown.mem_preOrder_iff.1 member

/-! ## Children in their order -/

/-- The children of a node are the nodes with this parent, from the oldest to the youngest. -/
theorem Grown.children_eq_filter (grown : t.Grown) (id : Nat) :
    t.children id = (List.range t.size).filter fun child => t.parent? child = some id := by
  induction grown with
  | empty => rfl
  | @root node leaf =>
    have orphan : (SearchTree.empty.push node none).2.parent? 0 = none := by
      rw [parent?, node?_push_none]
      rfl
    have childless : (SearchTree.empty.push node none).2.children id = [] := by
      rw [children, node?_push_none]
      by_cases first : id = 0
      · rw [if_pos first]
        exact leaf
      · rw [if_neg first]
    rw [childless, size_push, size_empty, List.range_succ, List.range_zero, List.nil_append,
      List.filter_cons, orphan]
    rfl
  | @child t parent node grown older leaf ih =>
    -- the range grows at its end, where the parent puts its new child as well
    have same : (List.range t.size).filter
        (fun child => (t.push node (some parent)).2.parent? child = some id) =
        (List.range t.size).filter fun child => t.parent? child = some id := by
      apply List.filter_congr
      intro child member
      rw [parent?_push older, if_neg (Nat.ne_of_lt (List.mem_range.1 member))]
    rw [children_push older leaf, size_push, List.range_succ, List.filter_append, same, ← ih,
      List.filter_cons, parent?_push older, if_pos rfl]
    by_cases own : id = parent
    · simp [own]
    · simp [own, Ne.symm own]

/-! ## The nodes above a node -/

theorem Grown.exists_parent? (grown : t.Grown) {id : Nat} (later : 0 < id) (inside : id < t.size) :
    ∃ parent, t.parent? id = some parent := by
  induction grown with
  | empty => exact absurd inside (Nat.not_lt_zero id)
  | root =>
    rw [size_push, size_empty] at inside
    omega
  | @child t parent _ _ older _ ih =>
    rw [parent?_push older]
    split
    · exact ⟨parent, rfl⟩
    · rename_i other
      rw [size_push] at inside
      exact ih (by omega)

/-- The last node on the way up from a node is the root. -/
theorem Grown.getLast?_ancestors (grown : t.Grown) {id : Nat} (inside : id < t.size) :
    (id :: t.ancestors id).getLast? = some 0 := by
  induction id using Nat.strongRecOn with
  | ind id ih =>
    rcases Nat.eq_zero_or_pos id with rfl | later
    · rw [grown.ancestors_zero]
      rfl
    · obtain ⟨parent, above⟩ := grown.exists_parent? later inside
      have older := (grown.parent_lt above).1
      rw [grown.ancestors_child (grown.mem_children_iff.2 above), List.getLast?_cons_cons]
      exact ih parent older (older.trans inside)

/-- In a listing a node is behind its parent, unless it is one of those that the listing is of. -/
theorem Listing.exists_parent {ids before after : List NodeId} {id : NodeId}
    (listing : t.Listing ids (before ++ id :: after)) :
    id ∈ ids ∨ ∃ parent ∈ before, id ∈ t.children parent := by
  induction before generalizing ids with
  | nil =>
    obtain ⟨siblings, rfl, -⟩ := listing.exists_cons
    exact .inl List.mem_cons_self
  | cons first before ih =>
    obtain ⟨siblings, rfl, next⟩ := listing.exists_cons
    rcases ih next with waiting | ⟨parent, member, below⟩
    · rcases List.mem_append.1 waiting with below | sibling
      · exact .inr ⟨first, List.mem_cons_self, below⟩
      · exact .inl (List.mem_cons_of_mem first sibling)
    · exact .inr ⟨parent, List.mem_cons_of_mem first member, below⟩

/-- The nodes above a node are listed before it. -/
theorem Grown.ancestors_subset (grown : t.Grown) {before after : List NodeId} {id : Nat}
    (split : t.preOrder = before ++ id :: after) : t.ancestors id ⊆ before := by
  induction id using Nat.strongRecOn generalizing before after with
  | ind id ih =>
    have listing := grown.listing_preOrder
    rw [split] at listing
    rcases listing.exists_parent with first | ⟨parent, member, below⟩
    · rw [eq_zero_of_root? (Option.mem_toList.1 first), grown.ancestors_zero]
      exact List.nil_subset before
    · have older := (grown.parent_lt (grown.mem_children_iff.1 below)).1
      obtain ⟨higher, lower, rfl⟩ := List.append_of_mem member
      rw [List.append_assoc, List.cons_append] at split
      have above : t.ancestors parent ⊆ higher := ih parent older split
      rw [grown.ancestors_child below]
      exact List.cons_subset.2 ⟨member, fun _ listed => List.mem_append_left _ (above listed)⟩

end SearchTree

/-! ## Statistics -/

namespace SearchStatistics

variable {t : SearchTree} {p : Progress} {size : Counters → Nat}

theorem size_foldl_add (adds : ∀ total node, size (add total node) = size total + size node)
    (nodes : List Counters) (total : SearchStatistics) :
    size (nodes.foldl add total) = size total + totalSize size nodes := by
  induction nodes generalizing total with
  | nil => rfl
  | cons c rest ih =>
    rw [List.foldl_cons, ih, adds, totalSize_cons]
    omega

/-- What adds up has its total over all nodes in the statistics. -/
theorem aggregate_eq_totalSize (once : t.preOrder.Perm (List.range t.size))
    (adds : ∀ total node, size (add total node) = size total + size node)
    (none : size Counters.zero = 0) :
    size (aggregate t p) = totalSize (fun id => size (p.counters id)) (List.range t.size) :=
  calc size (aggregate t p)
      = size Counters.zero + totalSize size (t.preOrder.map p.counters) :=
        size_foldl_add adds _ _
    _ = totalSize (fun id => size (p.counters id)) t.preOrder := by
        rw [none, Nat.zero_add, totalSize_map]
    _ = totalSize (fun id => size (p.counters id)) (List.range t.size) :=
        totalSize_perm _ once

theorem maxDepth_foldl_add_le_iff (nodes : List Counters) (total : SearchStatistics)
    (depth : Nat) :
    (nodes.foldl add total).maxDepth ≤ depth ↔
      total.maxDepth ≤ depth ∧ ∀ c ∈ nodes, c.maxDepth ≤ depth := by
  induction nodes generalizing total with
  | nil => simp
  | cons c rest ih =>
    have step : (add total c).maxDepth ≤ depth ↔ total.maxDepth ≤ depth ∧ c.maxDepth ≤ depth :=
      Nat.max_le
    rw [List.foldl_cons, ih, step, List.forall_mem_cons, and_assoc]

theorem maxDepth_aggregate_le_iff (once : t.preOrder.Perm (List.range t.size)) (depth : Nat) :
    (aggregate t p).maxDepth ≤ depth ↔ ∀ id < t.size, (p.counters id).maxDepth ≤ depth := by
  unfold aggregate
  rw [maxDepth_foldl_add_le_iff, List.forall_mem_map]
  simp only [once.mem_iff, List.mem_range]
  exact and_iff_right (Nat.zero_le depth)

/-- The number of solutions that is taken is the last one that is not zero. -/
theorem solutions_foldl_add_eq_getLast? (nodes : List Counters) (total : SearchStatistics) :
    (nodes.foldl add total).solutions =
      ((nodes.map Counters.solutions).filter (0 < ·)).getLast?.getD total.solutions := by
  induction nodes generalizing total with
  | nil => rfl
  | cons c rest ih =>
    rw [List.foldl_cons, ih, List.map_cons, List.filter_cons]
    by_cases some : 0 < c.solutions
    · have taken : (add total c).solutions = c.solutions := if_pos some
      rw [taken, if_pos (decide_eq_true some), List.getLast?_cons]
      rfl
    · have kept : (add total c).solutions = total.solutions := if_neg some
      rw [kept, if_neg (by simpa using some)]

/-- If the order has each node once, then the statistics take each node once. -/
theorem takesEach_of_perm (once : t.preOrder.Perm (List.range t.size)) (p : Progress) :
    TakesEach t p where
  nodes := aggregate_eq_totalSize once (fun _ _ => rfl) rfl
  decisions := aggregate_eq_totalSize once (fun _ _ => rfl) rfl
  wrongDecisions := aggregate_eq_totalSize once (fun _ _ => rfl) rfl
  backtracks := aggregate_eq_totalSize once (fun _ _ => rfl) rfl
  maxDepth := maxDepth_aggregate_le_iff once
  solutions := by
    apply (solutions_foldl_add_eq_getLast? _ _).trans
    rw [List.map_map]
    rfl

end SearchStatistics

namespace SearchTree

variable {t : SearchTree}

/-- The walks through a tree that was grown, however its nodes branch, come to their ends. Both
ways to walk have the same order, which has each node once, and the statistics take each node
once. -/
theorem traversed_of_grown (grown : t.Grown) : t.Traversed where
  children := grown.children_eq_filter
  loop order := by
    constructor
    · intro walked
      exact walked.unique grown.stackLoop_preOrder
    · rintro rfl
      exact grown.stackLoop_preOrder
  recursion order := by
    constructor
    · intro listing
      exact listing.unique grown.listing_preOrder
    · rintro rfl
      exact grown.listing_preOrder
  once := grown.preOrder_perm
  climb id above := by
    constructor
    · intro climb
      exact climb.unique (grown.climb id)
    · rintro rfl
      exact grown.climb id
  rooted _ inside := grown.getLast?_ancestors inside
  behind _ _ _ split := grown.ancestors_subset split
  statistics := SearchStatistics.takesEach_of_perm grown.preOrder_perm

/-- The youngest of six nodes is walked before two older ones, so that the number of solutions
that it has written is not the last one. -/
theorem traversed_of_grown_branching :
    ∃ (t : SearchTree) (p : Progress), t.Grown ∧ t.Traversed ∧
      t.preOrder = [0, 1, 3, 5, 2, 4] ∧ t.ancestors 5 = [1, 0] ∧
      SearchStatistics.aggregate t p = ⟨15, 6, 0, 6, 5, 4⟩ := by
  let node := SearchNode.ofSearch ⟨.int, [⟨0⟩], .inputOrder, .min, .complete, .ascending⟩ .explicit
  let root := (empty.push node none).2
  let below (t : SearchTree) (parent : Nat) := (t.push node (some parent)).2
  let t := below (below (below (below (below root 0) 0) 1) 2) 1
  have grown : t.Grown := by
    have one : root.Grown := .root rfl
    have three : (below (below root 0) 0).Grown := .child (.child one (by decide) rfl) (by decide) rfl
    exact .child (.child (.child three (by decide) rfl) (by decide) rfl) (by decide) rfl
  let p : Progress :=
    ⟨(List.range 6).map fun id => ⟨.ready, none, ⟨id, 1, 0, 1, id, id⟩, .ascending⟩⟩
  exact ⟨t, p, grown, traversed_of_grown grown, by decide, by decide, by decide⟩

end SearchTree

end StagedSearch
