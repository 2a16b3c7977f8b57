/-
# The course of a search

What a search does, in the order in which it does it: when it compares the clock with the
deadline, which candidates it decides, and which stores it hands to the listener. Each
step is recorded with the state in which it is taken, so that one can say what was known,
and how late it was, at that moment.

The rules are the ways out of a frame and out of its trials. They form one relation over
tasks, and not one for frames and one for trials that call each other, so that whatever is
said of all courses is one induction. A course adds nothing to a search: it comes to what
the engine comes to.
-/

import StagedSearch.Search.Engine

namespace StagedSearch

/-- A candidate at its place: at which node, after how many decisions there, on which path,
and as which of how many. -/
structure Trial where
  id : NodeId
  depth : Nat
  path : PathState
  index : Nat
  size : Nat
  choice : Choice
deriving DecidableEq, Inhabited

/-- A step of a search, with the state in which it is taken. -/
inductive SearchStep (ρ : Type) where
  /-- The clock is compared with the deadline, before a candidate is tried. -/
  | look (trial : Trial) (st : SearchState ρ)
  /-- A candidate is decided. -/
  | decide (trial : Trial) (st : SearchState ρ)
  /-- The store is handed to the listener at a node without children. -/
  | accept (id : NodeId) (st : SearchState ρ)

namespace SearchStep

variable {ρ : Type}

@[simp]
def state : SearchStep ρ → SearchState ρ
  | look _ st => st
  | decide _ st => st
  | accept _ st => st

def accepted? : SearchStep ρ → Option Store
  | accept _ st => some st.store
  | _ => none

/-- The incumbent that a step sets: at an optimizing node, the value of the bound in the
store that is handed to the listener. -/
def incumbent? (t : SearchTree) : SearchStep ρ → Option Int
  | accept id st =>
    match t.node? id with
    | some node =>
      if node.optimizing then SearchState.boundValue? st.store node.bound else none
    | none => none
  | _ => none

def accepted (steps : List (SearchStep ρ)) : List Store := steps.filterMap accepted?

def incumbents (t : SearchTree) (steps : List (SearchStep ρ)) : List Int :=
  steps.filterMap (incumbent? t)

end SearchStep

inductive SearchTask where
  /-- to decide what is left of a node, after `depth` decisions there, and then the nodes
  below -/
  | label (id : NodeId) (depth : Nat) (path : PathState)
  /-- to try the candidates of a decision, of which `index` have been tried -/
  | trials (id : NodeId) (depth : Nat) (path : PathState) (size index : Nat)
    (candidates : Candidates)
deriving Inhabited

def SearchTask.node : SearchTask → NodeId
  | label id _ _ => id
  | trials id _ _ _ _ _ => id

/-- How many decisions have been taken at that node before. -/
def SearchTask.depth : SearchTask → Nat
  | label _ depth _ => depth
  | trials _ depth _ _ _ _ => depth

namespace SearchTree

variable {ρ : Type}

/-- The steps of a task, and what it comes to, when some frames may still nest. -/
inductive Course [Reporter ρ] (t : SearchTree) :
    Nat → SearchTask → SearchState ρ → List (SearchStep ρ) → Flow × SearchState ρ → Prop
  /-- No frame may nest any more. -/
  | spent {id : NodeId} {depth : Nat} {path : PathState} {st : SearchState ρ} :
      Course t 0 (.label id depth path) st [] (.proceed, st)
  /-- There is no such node. -/
  | missing {frames : Nat} {id : NodeId} {depth : Nat} {path : PathState}
      {st : SearchState ρ} (none : t.node? id = none) :
      Course t (frames + 1) (.label id depth path) st [] (.proceed, st)
  /-- Everything is decided at a node without children. -/
  | solved {frames : Nat} {id : NodeId} {depth : Nat} {path : PathState} {st : SearchState ρ}
      {node : SearchNode} (here : t.node? id = some node)
      (decided : node.search.variableOrder.select? st.store node.vars = none)
      (last : node.children.head? = none) :
      Course t (frames + 1) (.label id depth path) st [.accept id st] (st.acceptAt id node)
  /-- Everything is decided at a node, and its first child goes on. -/
  | descended {frames : Nat} {id child : NodeId} {depth : Nat} {path : PathState}
      {st st' : SearchState ρ} {node : SearchNode} {steps : List (SearchStep ρ)} {flow : Flow}
      (here : t.node? id = some node)
      (decided : node.search.variableOrder.select? st.store node.vars = none)
      (next : node.children.head? = some child)
      (below : Course t frames (.label child 0 .start) (st.setState child .labeling) steps
        (flow, st')) :
      Course t (frames + 1) (.label id depth path) st steps
        (flow, st'.setState child (if flow = .timedOut then .timedOut else .exhausted))
  /-- A variable is picked, and its candidates are tried. -/
  | branched {frames : Nat} {id : NodeId} {depth : Nat} {path : PathState}
      {st st₁ st₂ : SearchState ρ} {node : SearchNode} {var : VarId} {branching : Branching}
      {steps : List (SearchStep ρ)} {flow : Flow} (here : t.node? id = some node)
      (picked : node.search.variableOrder.select? st.store node.vars = some var)
      (listed : (st.count id fun c => { c with maxDepth := max c.maxDepth (depth + 1) }).branch
        id var = (branching, st₁))
      (trials : Course t frames (.trials id depth path branching.size 0 branching.candidates)
        st₁ steps (flow, st₂)) :
      Course t (frames + 1) (.label id depth path) st steps
        (flow, if flow = .proceed then st₂.backtrack id st.accepted else st₂)
  /-- No candidate is left. -/
  | emptied {frames : Nat} {id : NodeId} {depth size index : Nat} {path : PathState}
      {candidates : Candidates} {st : SearchState ρ} (none : candidates.next? = none) :
      Course t frames (.trials id depth path size index candidates) st [] (.proceed, st)
  /-- The time is up. -/
  | late {frames : Nat} {id : NodeId} {depth size index : Nat} {path : PathState}
      {candidates rest : Candidates} {choice : Choice} {st st₁ : SearchState ρ}
      {node : SearchNode} (here : t.node? id = some node)
      (next : candidates.next? = some (choice, rest)) (expired : st.expired id = (true, st₁)) :
      Course t frames (.trials id depth path size index candidates) st
        [.look ⟨id, depth, path, index, size, choice⟩ st] (.timedOut, st₁.timeOut)
  /-- The next candidate is left out, and with it all later ones. -/
  | pruned {frames : Nat} {id : NodeId} {depth size index : Nat} {path : PathState}
      {candidates rest : Candidates} {choice : Choice} {st st₁ : SearchState ρ}
      {node : SearchNode} (here : t.node? id = some node)
      (next : candidates.next? = some (choice, rest)) (inTime : st.expired id = (false, st₁))
      (refused : Decorator.stepAll? node.decorators path index size = none) :
      Course t frames (.trials id depth path size index candidates) st
        [.look ⟨id, depth, path, index, size, choice⟩ st] (.proceed, st₁)
  /-- The next candidate fails, and the later ones are tried. -/
  | failed {frames : Nat} {id : NodeId} {depth size index : Nat} {path path' : PathState}
      {candidates rest : Candidates} {choice : Choice} {st st₁ st₂ : SearchState ρ}
      {node : SearchNode} {steps : List (SearchStep ρ)} {outcome : Flow × SearchState ρ}
      (here : t.node? id = some node) (next : candidates.next? = some (choice, rest))
      (inTime : st.expired id = (false, st₁))
      (admitted : Decorator.stepAll? node.decorators path index size = some path')
      (fails : st₁.decide id node.bound choice = (false, st₂))
      (later : Course t frames (.trials id depth path size (index + 1) rest) st₂ steps outcome) :
      Course t frames (.trials id depth path size index candidates) st
        (.look ⟨id, depth, path, index, size, choice⟩ st ::
          .decide ⟨id, depth, path, index, size, choice⟩ st₁ :: steps) outcome
  /-- The frame below the next candidate lets the search go on, and the later candidates are
  tried. -/
  | returned {frames : Nat} {id : NodeId} {depth size index : Nat} {path path' : PathState}
      {candidates rest : Candidates} {choice : Choice} {st st₁ st₂ st₃ : SearchState ρ}
      {node : SearchNode} {inner steps : List (SearchStep ρ)} {outcome : Flow × SearchState ρ}
      (here : t.node? id = some node) (next : candidates.next? = some (choice, rest))
      (inTime : st.expired id = (false, st₁))
      (admitted : Decorator.stepAll? node.decorators path index size = some path')
      (enters : st₁.decide id node.bound choice = (true, st₂))
      (below : Course t frames (.label id (depth + 1) path') st₂ inner (.proceed, st₃))
      (later : Course t frames (.trials id depth path size (index + 1) rest) st₃.popLevel steps
        outcome) :
      Course t frames (.trials id depth path size index candidates) st
        (.look ⟨id, depth, path, index, size, choice⟩ st ::
          .decide ⟨id, depth, path, index, size, choice⟩ st₁ :: (inner ++ steps)) outcome
  /-- The frame below the next candidate ends the search. -/
  | ended {frames : Nat} {id : NodeId} {depth size index : Nat} {path path' : PathState}
      {candidates rest : Candidates} {choice : Choice} {st st₁ st₂ st₃ : SearchState ρ}
      {node : SearchNode} {inner : List (SearchStep ρ)} {flow : Flow}
      (here : t.node? id = some node) (next : candidates.next? = some (choice, rest))
      (inTime : st.expired id = (false, st₁))
      (admitted : Decorator.stepAll? node.decorators path index size = some path')
      (enters : st₁.decide id node.bound choice = (true, st₂))
      (below : Course t frames (.label id (depth + 1) path') st₂ inner (flow, st₃))
      (ends : flow ≠ .proceed) :
      Course t frames (.trials id depth path size index candidates) st
        (.look ⟨id, depth, path, index, size, choice⟩ st ::
          .decide ⟨id, depth, path, index, size, choice⟩ st₁ :: inner) (flow, st₃.popLevel)

end SearchTree

/-- The state in which the frames of a run begin, if propagation succeeds. -/
def SearchState.started {ρ : Type} (t : SearchTree) (st : SearchState ρ) : SearchState ρ :=
  ⟨st.progress.start st.context.deadline?.1 t.preOrder, st.store.pushLevel.consistency.2,
    st.context.deadline?.2⟩

namespace SearchTree

variable {ρ : Type}

/-- The steps of a run. There are none in a tree without nodes, or if propagation fails at
the start. -/
inductive Follows [Reporter ρ] (t : SearchTree) (st : SearchState ρ) :
    List (SearchStep ρ) → Prop
  | empty (none : t.root? = none) : Follows t st []
  | inconsistent {root : NodeId} (found : t.root? = some root)
      (fails : st.store.pushLevel.consistency.1 = false) : Follows t st []
  | searched {root : NodeId} {steps : List (SearchStep ρ)} {outcome : Flow × SearchState ρ}
      (found : t.root? = some root) (succeeds : st.store.pushLevel.consistency.1 = true)
      (course : t.Course (t.frameBound st.store) (.label root 0 .start)
        ((SearchState.started t st).setState root .labeling) steps outcome) : Follows t st steps

end SearchTree

end StagedSearch
