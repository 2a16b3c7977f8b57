/-
# Ways through a tree

What a search for all solutions comes upon: the ways from the root to a solution, in order. A way
records which candidates are chosen in each stage, each by its place among all candidates of its
decision, whether those before it fail or not. Only the store and the path of the decorators
matter here. There is no clock, no listener and no incumbent, and nothing is counted.

The decorators are those of the tree, so the ways of a decorated tree can be compared with those
of the same tree without decorators.
-/

import StagedSearch.Search.Engine

namespace StagedSearch

/-- A candidate that is chosen, by its place, and how many candidates there are. -/
structure Pick where
  index : Nat
  size : Nat
deriving DecidableEq, Inhabited

/-- A way to a solution: what is chosen in the stage where it begins, and in each later stage. -/
structure Way where
  here : List Pick
  later : List (NodeId × List Pick)
  leaf : Store

/-- A way through the rest of one stage, to where the next one begins. -/
structure StageWay where
  here : List Pick
  store : Store
  /-- how many frames may still nest -/
  frames : Nat

namespace Way

/-- The way that begins with a pick. -/
def after (pick : Pick) (w : Way) : Way := { w with here := pick :: w.here }

/-- The way that goes on at a node when its own stage has ended. -/
def into (child : NodeId) (w : Way) : Way := ⟨[], (child, w.here) :: w.later, w.leaf⟩

/-- The way that begins with some picks in its first stage. -/
def along (picks : List Pick) (w : Way) : Way := { w with here := picks ++ w.here }

def stages (id : NodeId) (w : Way) : List (NodeId × List Pick) := (id, w.here) :: w.later

end Way

def StageWay.after (pick : Pick) (e : StageWay) : StageWay := { e with here := pick :: e.here }

namespace SearchTree

variable {α : Type}

/-- What is found below the candidates of a decision, from `index` on. Each candidate is tried in
the store, unless a decorator leaves it out and with it all later ones. -/
def choose (after : Pick → α → α) (below : PathState → Store → List α)
    (decorators : List Decorator) (path : PathState) (s : Store) (size : Nat) :
    Nat → List Choice → List α
  | _, [] => []
  | index, choice :: rest =>
    match Decorator.stepAll? decorators path index size with
    | none => []
    | some next =>
      let (consistent, tried) := s.pushLevel.attempt choice none none
      (if consistent then (below next tried).map (after ⟨index, size⟩) else []) ++
        choose after below decorators path s size (index + 1) rest

def listed (node : SearchNode) (s : Store) (var : VarId) : Branching :=
  (node.search.valueOrder.candidates s var).1

/-- The ways from what is left of a node to a solution, when some frames may nest. -/
def ways (t : SearchTree) : Nat → NodeId → PathState → Store → List Way
  | 0, _, _, _ => []
  | frames + 1, id, path, s =>
    match t.node? id with
    | none => []
    | some node =>
      match node.search.variableOrder.select? s node.vars with
      | none =>
        match node.children.head? with
        | none => [⟨[], [], s⟩]
        | some child => (t.ways frames child .start s).map (Way.into child)
      | some var =>
        choose Way.after (t.ways frames id) node.decorators path s (listed node s var).size 0
          (listed node s var).candidates.toList

/-- The ways through what is left of a node. -/
def stageWays (t : SearchTree) : Nat → NodeId → PathState → Store → List StageWay
  | 0, _, _, _ => []
  | frames + 1, id, path, s =>
    match t.node? id with
    | none => []
    | some node =>
      match node.search.variableOrder.select? s node.vars with
      | none => [⟨[], s, frames⟩]
      | some var =>
        choose StageWay.after (t.stageWays frames id) node.decorators path s
          (listed node s var).size 0 (listed node s var).candidates.toList

/-- The ways from the end of a stage at a node to a solution. -/
def waysOnward (t : SearchTree) (id : NodeId) (frames : Nat) (s : Store) : List Way :=
  match (t.children id).head? with
  | none => [⟨[], [], s⟩]
  | some child => (t.ways frames child .start s).map (Way.into child)

/-- The ways of a run: none if propagation fails at the root. -/
def waysFrom (t : SearchTree) (s : Store) : List Way :=
  match t.root? with
  | none => []
  | some root =>
    if s.pushLevel.consistency.1 then
      t.ways (t.frameBound s) root .start s.pushLevel.consistency.2
    else []

/-- The same tree with other explorations. -/
def reexplore (f : NodeId → Exploration → Exploration) (t : SearchTree) : SearchTree :=
  ⟨t.nodes.mapIdx fun id node =>
    { node with search := { node.search with exploration := f id node.search.exploration } }⟩

def plain (t : SearchTree) : SearchTree := t.reexplore fun _ _ => .complete

def explore (t : SearchTree) (id : NodeId) (exploration : Exploration) : SearchTree :=
  t.reexplore fun other before => if other = id then exploration else before

end SearchTree

end StagedSearch
