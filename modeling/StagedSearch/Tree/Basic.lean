/-
# Search trees

A search tree arranges compiled searches in stages: a child starts when every variable of
its parent is decided. Nodes are kept in the order in which they were added and are known
by their position; a parent is always older than its children. What a run learns about a
node is kept apart from the tree, in its progress.
-/

import StagedSearch.Search.Decorator
import StagedSearch.Tree.Compiled

namespace StagedSearch

/-- A node, by its position in the order of addition. -/
abbrev NodeId := Nat

/-- Why a node is in the tree. -/
inductive NodeRole where
  /-- A hint asks for it. -/
  | explicit
  /-- It decides variables that no hint claims. -/
  | completion
deriving DecidableEq, Inhabited

def NodeRole.name : NodeRole → String
  | .explicit => "explicit"
  | .completion => "completion"

/-- One stage of a search. -/
structure SearchNode where
  search : CompiledSearch
  role : NodeRole
  parent : Option NodeId
  children : List NodeId
  /-- The variable that has to improve on the incumbent, when optimizing. -/
  bound : Option VarId
  /-- Whether solutions at this node set the incumbent. -/
  optimizing : Bool
deriving DecidableEq, Inhabited

namespace SearchNode

/-- A node outside of any tree, without a bound. -/
def ofSearch (search : CompiledSearch) (role : NodeRole) : SearchNode :=
  ⟨search, role, none, [], none, false⟩

def vars (n : SearchNode) : List VarId := n.search.vars

def decorators (n : SearchNode) : List Decorator := n.search.exploration.decorators

end SearchNode

/-- The nodes of a tree. The first one is the root. -/
structure SearchTree where
  nodes : Array SearchNode
deriving DecidableEq, Inhabited

namespace SearchTree

def empty : SearchTree := ⟨#[]⟩

def size (t : SearchTree) : Nat := t.nodes.size

def root? (t : SearchTree) : Option NodeId := if t.nodes.isEmpty then none else some 0

def node? (t : SearchTree) (id : NodeId) : Option SearchNode := t.nodes[id]?

/-- The children of a node, in the order in which they were added. -/
def children (t : SearchTree) (id : NodeId) : List NodeId :=
  match t.node? id with
  | some n => n.children
  | none => []

def parent? (t : SearchTree) (id : NodeId) : Option NodeId := (t.node? id).bind SearchNode.parent

/-- Adds a node as the last child of another one. -/
def push (t : SearchTree) (node : SearchNode) (parent : Option NodeId) : NodeId × SearchTree :=
  let id := t.size
  let nodes := t.nodes.push { node with parent }
  match parent with
  | none => (id, ⟨nodes⟩)
  | some p => (id, ⟨nodes.modify p fun n => { n with children := n.children ++ [id] }⟩)

/-- Visits the nodes of a stack, each before its children. No node is visited more often
than the tree has nodes, which `visits` counts down. -/
def visit (t : SearchTree) : Nat → List NodeId → List NodeId
  | 0, _ => []
  | _, [] => []
  | visits + 1, id :: stack => id :: visit t visits (t.children id ++ stack)

/-- The nodes from the root, each before its children. -/
def preOrder (t : SearchTree) : List NodeId := t.visit t.size t.root?.toList

/-- The nodes above a parent link, nearest first. The links go to older nodes, so they are
at most as many as the tree has nodes, which `steps` counts down. -/
def above (t : SearchTree) : Nat → Option NodeId → List NodeId
  | _, none => []
  | 0, some _ => []
  | steps + 1, some id => id :: t.above steps (t.parent? id)

/-- The nodes above a node, nearest first. -/
def ancestors (t : SearchTree) (id : NodeId) : List NodeId := t.above t.size (t.parent? id)

/-- Puts a variable at its place in an ascending list, unless it is there. -/
def insertVariable (var : VarId) : List VarId → List VarId
  | [] => [var]
  | v :: rest =>
    if var.index < v.index then var :: v :: rest
    else if var = v then v :: rest
    else v :: insertVariable var rest

/-- The variables of all nodes, ascending and each once. -/
def vars (t : SearchTree) : List VarId :=
  (t.nodes.toList.flatMap SearchNode.vars).foldr insertVariable []

/-- Whether no node leaves candidates out. -/
def isComplete (t : SearchTree) : Bool := t.nodes.toList.all (·.decorators.isEmpty)

/-- The nodes that decide what no hint claims, in pre-order. -/
def completionNodes (t : SearchTree) : List SearchNode :=
  (t.preOrder.filterMap t.node?).filter (·.role == .completion)

/-- One line of the description of a tree: indented by depth, numbered from 1. -/
def describeNode (t : SearchTree) (s : Store) (id : NodeId) (n : SearchNode) : String :=
  "".pushn ' ' (2 * (t.ancestors id).length) ++ toString (id + 1) ++ ". " ++ n.search.describe s
    ++ (if n.role = .completion then " [completion]" else "")
    ++ (if n.optimizing then " [optimize]" else "") ++ "\n"

/-- A line per node, in pre-order. -/
def describe (t : SearchTree) (s : Store) : String :=
  String.join (t.preOrder.map fun id =>
    match t.node? id with
    | some n => t.describeNode s id n
    | none => "")

end SearchTree

end StagedSearch
