/-
# Searching in limited room

The frames of the engine count down how many of them may still nest, and a frame that may not
be entered lets the search go on as if nothing were there. Here the same search is written down
so that it comes to nothing (`none`) when it would have to enter one frame too many, and also
when the end of its time limit cannot be told. A search that comes to something in the room for a
number of frames has ended by itself, and its frames have never nested deeper than that.
-/

import StagedSearch.Search.Engine

namespace StagedSearch

namespace SearchState

variable {ρ : Type}

/-- Runs the frames of a node, which may lack room, and notes how they ended. -/
def within? (st : SearchState ρ) (id : NodeId)
    (frames : SearchState ρ → Option (Flow × SearchState ρ)) : Option (Flow × SearchState ρ) :=
  (frames (st.setState id .labeling)).map fun outcome =>
    (outcome.1,
      outcome.2.setState id (if outcome.1 = .timedOut then .timedOut else .exhausted))

end SearchState

namespace SearchTree

variable {ρ : Type}

/-- Tries candidates in order, as long as there is room for the frames below them. -/
def tryCandidates? (below : PathState → SearchState ρ → Option (Flow × SearchState ρ))
    (id : NodeId) (node : SearchNode) (path : PathState) (size : Nat) (index : Nat)
    (candidates : Candidates) (st : SearchState ρ) : Option (Flow × SearchState ρ) :=
  match _taken : candidates.next? with
  | none => some (.proceed, st)
  | some (choice, rest) =>
    match st.expired id with
    | (true, st) => some (.timedOut, st.timeOut)
    | (false, st) =>
      match Decorator.stepAll? node.decorators path index size with
      | none => some (.proceed, st)
      | some next =>
        match st.decide id node.bound choice with
        | (false, st) => tryCandidates? below id node path size (index + 1) rest st
        | (true, st) =>
          match below next st with
          | none => none
          | some (.proceed, st) =>
            tryCandidates? below id node path size (index + 1) rest st.popLevel
          | some (flow, st) => some (flow, st.popLevel)
termination_by candidates.remaining
decreasing_by all_goals exact Candidates.remaining_of_next? _taken

/-- Decides the remaining variables of a node, and then of the nodes below it, in the room for
a number of frames. -/
def label? [Reporter ρ] (t : SearchTree) :
    Nat → NodeId → Nat → PathState → SearchState ρ → Option (Flow × SearchState ρ)
  | 0, _, _, _, _ => none
  | room + 1, id, depth, path, st =>
    match t.node? id with
    | none => some (.proceed, st)
    | some node =>
      match node.search.variableOrder.select? st.store node.vars with
      | none =>
        match node.children.head? with
        | some child => st.within? child (t.label? room child 0 .start)
        | none => some (st.acceptAt id node)
      | some var =>
        let st := st.count id fun c => { c with maxDepth := max c.maxDepth (depth + 1) }
        let before := st.accepted
        let (branching, st) := st.branch id var
        (tryCandidates? (t.label? room id (depth + 1)) id node path branching.size 0
          branching.candidates st).map fun outcome =>
            (outcome.1,
              if outcome.1 = .proceed then outcome.2.backtrack id before else outcome.2)

/-- Searches in the room for a number of frames, if the search can begin. -/
def run? [Reporter ρ] (t : SearchTree) (room : Nat) (st : SearchState ρ) :
    Option (SearchResult × SearchState ρ) :=
  match t.root? with
  | none => some (⟨false, false, false⟩, st)
  | some root =>
    if st.context.DeadlineFits then
      let (deadline, context) := st.context.deadline?
      let before := context.listener.count
      let (consistent, store) := st.store.pushLevel.consistency
      let st : SearchState ρ := ⟨st.progress.start deadline t.preOrder, store, context⟩
      let searched :=
        if consistent then st.within? root (t.label? room root 0 .start)
        else some (.proceed, st.setState root .exhausted)
      searched.map fun outcome =>
        (⟨decide (before < outcome.2.accepted), decide (outcome.1 = .timedOut),
          decide (outcome.1 = .stop)⟩, outcome.2.popLevel)
    else none

end SearchTree

end StagedSearch
