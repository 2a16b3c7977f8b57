/-
# Progress of a run

What a run learns about the nodes of a tree: the state of each node, its deadline, its
counters, and its value order, which may have moved on. A later run over the same tree
starts from the progress that the earlier one left.
-/

import StagedSearch.Tree.Basic

namespace StagedSearch

inductive NodeState where
  | ready
  | labeling
  | solutionAtLeaf
  | backtracking
  | exhausted
  | timedOut
deriving DecidableEq, Inhabited

def NodeState.render : NodeState → String
  | .ready => "ready"
  | .labeling => "labeling"
  | .solutionAtLeaf => "solution"
  | .backtracking => "backtracking"
  | .exhausted => "exhausted"
  | .timedOut => "timed out"

structure Counters where
  /-- propagations after a decision -/
  nodes : Nat
  decisions : Nat
  /-- decisions that failed -/
  wrongDecisions : Nat
  /-- variables whose candidates were used up without a solution -/
  backtracks : Nat
  maxDepth : Nat
  /-- the number of solutions when the node wrote it last -/
  solutions : Nat
deriving DecidableEq, Inhabited

def Counters.zero : Counters := ⟨0, 0, 0, 0, 0, 0⟩

structure NodeProgress where
  state : NodeState
  deadline : Option Nat
  counters : Counters
  valueOrder : ValueOrder
deriving DecidableEq, Inhabited

/-- What a run knows about all nodes, by position. -/
abbrev Progress := Array NodeProgress

namespace Progress

def ofTree (tree : SearchTree) : Progress :=
  tree.nodes.map fun n => ⟨.ready, none, Counters.zero, n.search.valueOrder⟩

def modifyNode (p : Progress) (id : NodeId) (f : NodeProgress → NodeProgress) : Progress :=
  Array.modify p id f

def setState (p : Progress) (id : NodeId) (state : NodeState) : Progress :=
  p.modifyNode id fun n => { n with state }

def count (p : Progress) (id : NodeId) (f : Counters → Counters) : Progress :=
  p.modifyNode id fun n => { n with counters := f n.counters }

def counters (p : Progress) (id : NodeId) : Counters :=
  match p[id]? with
  | some n => n.counters
  | none => Counters.zero

def deadline? (p : Progress) (id : NodeId) : Option Nat := p[id]?.bind NodeProgress.deadline

/-- Makes the listed nodes ready for a run that ends at a deadline. -/
def start (p : Progress) (deadline : Option Nat) (ids : List NodeId) : Progress :=
  ids.foldl (fun p id => p.modifyNode id fun n => { n with deadline, state := .ready }) p

end Progress

end StagedSearch
