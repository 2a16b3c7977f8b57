/-
# The shape of search trees

Three descriptions of a tree that owe nothing to how it is walked: how it was grown, the
listing of its nodes that the children alone settle, and the climb along the parents. The
counted-down walks of `SearchTree` are measured by them. A tree that is built from stages is
a chain, which is said here as well.
-/

import StagedSearch.Tree.Basic

namespace StagedSearch

namespace SearchTree

/-- Trees that grow node by node. The first node has no parent, and every later one is added
below a node that is there. A node has no children before it is added. -/
inductive Grown : SearchTree → Prop
  | empty : Grown empty
  | root {node : SearchNode} (leaf : node.children = []) : Grown (empty.push node none).2
  | child {t : SearchTree} {parent : Nat} {node : SearchNode} (grown : Grown t)
      (older : parent < t.size) (leaf : node.children = []) : Grown (t.push node (some parent)).2

/-- The listing of the nodes below some nodes, each before its children and the children in
their order. A cycle of children would have no listing. -/
inductive Listing (t : SearchTree) : List NodeId → List NodeId → Prop
  | nil : Listing t [] []
  | cons {id : NodeId} {rest below later : List NodeId}
      (children : Listing t (t.children id) below) (siblings : Listing t rest later) :
      Listing t (id :: rest) (id :: (below ++ later))

/-- The climb from a parent link to the root, nearest node first. -/
inductive Climb (t : SearchTree) : Option NodeId → List NodeId → Prop
  | top : Climb t none []
  | step {id : NodeId} {rest : List NodeId} (above : Climb t (t.parent? id) rest) :
      Climb t (some id) (id :: rest)

/-- Every node but the first is the only child of the node before it. -/
structure IsChain (t : SearchTree) : Prop where
  parents : ∀ id < t.size, t.parent? id = if id = 0 then none else some (id - 1)
  children : ∀ id < t.size, t.children id = if id + 1 < t.size then [id + 1] else []

@[simp]
theorem size_empty : empty.size = 0 := rfl

@[simp]
theorem size_push (t : SearchTree) (node : SearchNode) (parent : Option NodeId) :
    (t.push node parent).2.size = t.size + 1 := by
  cases parent <;> simp [push, size]

theorem root?_eq_none_iff {t : SearchTree} : t.root? = none ↔ t.size = 0 := by
  simp [root?, size]

theorem root?_of_size_pos {t : SearchTree} (nonempty : 0 < t.size) : t.root? = some 0 := by
  unfold root?
  rw [if_neg]
  simpa [Array.isEmpty_iff_size_eq_zero, size, Nat.pos_iff_ne_zero] using nonempty

theorem eq_zero_of_root? {t : SearchTree} {root : NodeId} (found : t.root? = some root) :
    root = 0 := by
  unfold root? at found
  split at found
  · cases found
  · exact (Option.some.inj found).symm

/-- A list of nodes has at most one listing. -/
theorem Listing.unique {t : SearchTree} {ids first second : List NodeId}
    (left : Listing t ids first) (right : Listing t ids second) : first = second := by
  induction left generalizing second with
  | nil =>
    cases right
    rfl
  | cons _ _ ihChildren ihSiblings =>
    cases right with
    | cons children siblings => rw [ihChildren children, ihSiblings siblings]

/-- A parent link has at most one climb. -/
theorem Climb.unique {t : SearchTree} {link : Option NodeId} {first second : List NodeId}
    (left : Climb t link first) (right : Climb t link second) : first = second := by
  induction left generalizing second with
  | top =>
    cases right
    rfl
  | step _ ih =>
    cases right with
    | step above => rw [ih above]

end SearchTree

end StagedSearch
