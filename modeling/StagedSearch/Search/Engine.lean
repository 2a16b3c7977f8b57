/-
# The search engine

Depth-first labeling over a search tree. A frame decides one variable of one node: for each
candidate it opens a level, commits the candidate, demands an improvement on the incumbent
and propagates; then a frame below decides the next variable, and the level is closed. When
a node has nothing left to decide its child goes on, and at the last node the store holds a
solution.

Frames nest at most as deep as there are nodes and things to decide. This bound is computed
at the start of a run, and the frames count it down.

A run begins with the sum of the time and the time limit, and breaks off there if the sum is
out of range (`SearchTree.launch`). What it does otherwise is `SearchTree.run`, which computes
with the exact sum and always comes to a result.
-/

import StagedSearch.Tree.Build

namespace StagedSearch

/-- Why a frame ended. -/
inductive Flow where
  /-- the search goes on with the next candidate -/
  | proceed
  /-- the listener asked to stop -/
  | stop
  /-- the time was up -/
  | timedOut
deriving DecidableEq, Inhabited

structure SearchResult where
  /-- at least one solution was accepted -/
  found : Bool
  timedOut : Bool
  /-- the listener asked to stop -/
  stopped : Bool
deriving DecidableEq, Inhabited

/-- Why a run breaks off before it does anything. -/
inductive LaunchFault where
  /-- the end of its time limit cannot be told -/
  | overflow
deriving DecidableEq, Inhabited

def LaunchFault.message : LaunchFault → String
  | .overflow => "overflow when adding durations"

/-- What a run changes. -/
structure SearchState (ρ : Type) where
  progress : Progress
  store : Store
  context : Context ρ

/-- Demands that the bound is below the incumbent, when there are both. Nothing is below the
least value of the range. -/
def Store.improveOn (s : Store) (bound : Option VarId) (incumbent : Option Int) :
    Except Inconsistency Bool × Store :=
  match bound, incumbent with
  | some bound, some best =>
    match Signed64.checked (best - 1) with
    | some max => s.restrictMax bound max
    | none => (.error .inconsistent, s)
  | _, _ => (.ok false, s)

/-- Commits a choice, demands an improvement and propagates, as long as nothing fails. Says
whether nothing failed. -/
def Store.attempt (s : Store) (choice : Choice) (bound : Option VarId)
    (incumbent : Option Int) : Bool × Store :=
  match choice.commit s with
  | (.error _, s) => (false, s)
  | (.ok _, s) =>
    match s.improveOn bound incumbent with
    | (.error _, s) => (false, s)
    | (.ok _, s) => s.consistency

namespace SearchState

variable {ρ : Type}

def setState (st : SearchState ρ) (id : NodeId) (state : NodeState) : SearchState ρ :=
  { st with progress := st.progress.setState id state }

def count (st : SearchState ρ) (id : NodeId) (f : Counters → Counters) : SearchState ρ :=
  { st with progress := st.progress.count id f }

def popLevel (st : SearchState ρ) : SearchState ρ := { st with store := st.store.popLevel }

def accepted (st : SearchState ρ) : Nat := st.context.listener.count

/-- Whether the deadline of a node has come. Without a deadline the clock is not read. -/
def expired (st : SearchState ρ) (id : NodeId) : Bool × SearchState ρ :=
  match st.progress.deadline? id with
  | none => (false, st)
  | some deadline =>
    let (time, context) := st.context.readClock
    (decide (deadline ≤ time), { st with context })

def timeOut (st : SearchState ρ) : SearchState ρ :=
  { st with context := { st.context with timedOut := true } }

/-- Opens a level for a candidate and tries it. The level stays open if nothing fails. -/
def decide (st : SearchState ρ) (id : NodeId) (bound : Option VarId) (choice : Choice) :
    Bool × SearchState ρ :=
  let (consistent, store) :=
    st.store.pushLevel.attempt choice bound st.context.incumbent?
  let st : SearchState ρ :=
    { st with store, context := st.context.note (.decisionTaken choice consistent) }
  let st := st.count id fun c =>
    { c with
      decisions := c.decisions + 1
      nodes := c.nodes + 1
      wrongDecisions := if consistent then c.wrongDecisions else c.wrongDecisions + 1 }
  (consistent, if consistent then st else st.popLevel)

/-- The value of the bound at a solution: its only value, or else its least one. -/
def boundValue? (s : Store) (bound : Option VarId) : Option Int := do
  let d ← s.domains.int? (← bound)
  d.value?.or d.min?

/-- Records the incumbent of a solution at an optimizing node. -/
def setIncumbent (st : SearchState ρ) (node : SearchNode) : SearchState ρ :=
  match if node.optimizing then boundValue? st.store node.bound else none with
  | none => st
  | some value =>
    { st with context := (st.context.note (.incumbentSet value)).setIncumbent value }

def acceptAt [Reporter ρ] (st : SearchState ρ) (id : NodeId) (node : SearchNode) :
    Flow × SearchState ρ :=
  let st := st.setState id .solutionAtLeaf
  let (goOn, context) := st.context.accept st.store
  let st : SearchState ρ := { st with context }
  let st := st.count id fun c => { c with solutions := st.accepted }
  (if goOn then .proceed else .stop, st.setIncumbent node)

/-- Runs the frames of a node, and notes how they ended. -/
def within (st : SearchState ρ) (id : NodeId)
    (frames : SearchState ρ → Flow × SearchState ρ) : Flow × SearchState ρ :=
  let (flow, st) := frames (st.setState id .labeling)
  (flow, st.setState id (if flow = .timedOut then .timedOut else .exhausted))

/-- The candidates of a variable, by the value order of a node, which moves on. -/
def branch (st : SearchState ρ) (id : NodeId) (var : VarId) : Branching × SearchState ρ :=
  match st.progress[id]? with
  | none => (Branching.none, st)
  | some n =>
    let (branching, valueOrder) := n.valueOrder.candidates st.store var
    (branching, { st with progress := st.progress.modifyNode id ({ · with valueOrder }) })

/-- Counts a frame whose candidates are used up, if no solution was found since a number of
solutions had been accepted. -/
def backtrack (st : SearchState ρ) (id : NodeId) (before : Nat) : SearchState ρ :=
  if st.accepted = before then
    (st.count id fun c => { c with backtracks := c.backtracks + 1 }).setState id .backtracking
  else st

end SearchState

namespace SearchTree

variable {ρ : Type}

/-- Tries candidates in order, from `index` on. The first candidate that a decorator leaves
out ends the trials, because later ones would be left out as well. -/
def tryCandidates (below : PathState → SearchState ρ → Flow × SearchState ρ) (id : NodeId)
    (node : SearchNode) (path : PathState) (size : Nat) (index : Nat) (candidates : Candidates)
    (st : SearchState ρ) : Flow × SearchState ρ :=
  match _taken : candidates.next? with
  | none => (.proceed, st)
  | some (choice, rest) =>
    match st.expired id with
    | (true, st) => (.timedOut, st.timeOut)
    | (false, st) =>
      match Decorator.stepAll? node.decorators path index size with
      | none => (.proceed, st)
      | some next =>
        match st.decide id node.bound choice with
        | (false, st) => tryCandidates below id node path size (index + 1) rest st
        | (true, st) =>
          match below next st with
          | (.proceed, st) =>
            tryCandidates below id node path size (index + 1) rest st.popLevel
          | (flow, st) => (flow, st.popLevel)
termination_by candidates.remaining
decreasing_by all_goals exact Candidates.remaining_of_next? _taken

/-- Decides the remaining variables of a node, and then of the nodes below it. `depth`
counts the decisions at this node on the way here, and the first argument the frames that
may still nest. -/
def label [Reporter ρ] (t : SearchTree) :
    Nat → NodeId → Nat → PathState → SearchState ρ → Flow × SearchState ρ
  | 0, _, _, _, st => (.proceed, st)
  | frames + 1, id, depth, path, st =>
    match t.node? id with
    | none => (.proceed, st)
    | some node =>
      match node.search.variableOrder.select? st.store node.vars with
      | none =>
        match node.children.head? with
        | some child => st.within child (t.label frames child 0 .start)
        | none => st.acceptAt id node
      | some var =>
        let st := st.count id fun c => { c with maxDepth := max c.maxDepth (depth + 1) }
        let before := st.accepted
        let (branching, st) := st.branch id var
        let (flow, st) :=
          tryCandidates (t.label frames id (depth + 1)) id node path branching.size 0
            branching.candidates st
        (flow, if flow = .proceed then st.backtrack id before else st)

/-- How many decisions a variable can take: one, or one per undecided element. -/
def potential (s : Store) (var : VarId) : Nat :=
  match s.domains.get? var with
  | some (.int _) => 1
  | some (.set d) => d.undecided.length
  | none => 0

/-- A bound on the nesting of frames: the nodes, the decisions, and one more. -/
def frameBound (t : SearchTree) (s : Store) : Nat :=
  t.size + totalSize (potential s) t.vars + 1

/-- Searches until nothing is left, the listener stops the search, or its time is up. All
levels that the search opened are closed at the end. -/
def run [Reporter ρ] (t : SearchTree) (st : SearchState ρ) : SearchResult × SearchState ρ :=
  match t.root? with
  | none => (⟨false, false, false⟩, st)
  | some root =>
    let (deadline, context) := st.context.deadline?
    let before := context.listener.count
    let frames := t.frameBound st.store
    let (consistent, store) := st.store.pushLevel.consistency
    let st : SearchState ρ := ⟨st.progress.start deadline t.preOrder, store, context⟩
    let (flow, st) :=
      if consistent then st.within root (t.label frames root 0 .start)
      else (.proceed, st.setState root .exhausted)
    (⟨decide (before < st.accepted), decide (flow = .timedOut), decide (flow = .stop)⟩,
      st.popLevel)

/-- A run as it is asked for. It needs its deadline first of all, and breaks off if that cannot
be told. A tree without nodes needs none. -/
def launch [Reporter ρ] (t : SearchTree) (st : SearchState ρ) :
    Except LaunchFault (SearchResult × SearchState ρ) :=
  if t.root? = none ∨ st.context.DeadlineFits then .ok (t.run st) else .error .overflow

end SearchTree

end StagedSearch
