/-
# The same run without a time limit

Apart from the deadlines that are noted at the nodes, and from the clock that is read for them,
a run with a time limit and the one without agree in everything that a search looks at
(`Untimed`). So the first one does what the second one does, until the clock tells that the
deadline has come.
-/

import StagedSearch.Proofs.Search.NodeStates
import StagedSearch.Proofs.Search.Simulation

namespace StagedSearch

namespace Progress

/-- What is known about the nodes but for their deadlines. -/
def untimed (p : Progress) : Progress := p.map fun n => { n with deadline := none }

theorem getElem?_untimed (p : Progress) (id : Nat) :
    p.untimed[id]? = p[id]?.map fun n => { n with deadline := none } :=
  Array.getElem?_map

theorem deadline?_untimed (p : Progress) (id : Nat) : p.untimed.deadline? id = none := by
  unfold deadline?
  rw [getElem?_untimed]
  cases p[id]? <;> rfl

theorem untimed_modifyNode (p : Progress) (id : Nat) {f : NodeProgress → NodeProgress}
    (keeps : ∀ n, f { n with deadline := none } = { f n with deadline := none }) :
    (p.modifyNode id f).untimed = p.untimed.modifyNode id f := by
  refine Array.ext_getElem? fun other => ?_
  rw [getElem?_untimed, SearchState.getElem?_modifyNode, SearchState.getElem?_modifyNode,
    getElem?_untimed]
  split
  · rw [Option.map_map, Option.map_map]
    congr 1
    funext n
    exact (keeps n).symm
  · rfl

/-- If all nodes are listed, only the deadline distinguishes the starts of two runs. -/
theorem untimed_start (p : Progress) (deadline : Option Nat) {ids : List NodeId}
    (all : ∀ id < p.size, id ∈ ids) : (p.start deadline ids).untimed = p.start none ids := by
  refine Array.ext_getElem? fun id => ?_
  rw [getElem?_untimed, getElem?_start, getElem?_start]
  by_cases inside : id < p.size
  · rw [if_pos (all id inside), if_pos (all id inside), Option.map_map]
    rfl
  · rw [Array.getElem?_eq_none (Nat.le_of_not_lt inside)]
    split <;> rfl

end Progress

namespace SearchState

variable {ρ : Type} {st u : SearchState ρ}

def unlimited (st : SearchState ρ) : SearchState ρ :=
  { st with context := { st.context with timeLimit := none } }

/-- A state differs from another one only in what is known of the time, and in the journal. -/
structure Untimed (st u : SearchState ρ) : Prop where
  store : u.store = st.store
  progress : u.progress = st.progress.untimed
  objective : u.context.objective = st.context.objective
  listener : u.context.listener = st.context.listener

theorem Untimed.incumbent (same : Untimed st u) :
    u.context.incumbent? = st.context.incumbent? := by
  unfold Context.incumbent?
  rw [same.objective]

theorem Untimed.modifyNode (same : Untimed st u) (id : Nat) {f : NodeProgress → NodeProgress}
    (keeps : ∀ n, f { n with deadline := none } = { f n with deadline := none }) :
    Untimed { st with progress := st.progress.modifyNode id f }
      { u with progress := u.progress.modifyNode id f } :=
  ⟨same.store, by rw [same.progress, Progress.untimed_modifyNode _ _ keeps], same.objective,
    same.listener⟩

theorem Untimed.setState (same : Untimed st u) (id : Nat) (state : NodeState) :
    Untimed (st.setState id state) (u.setState id state) :=
  same.modifyNode id (by intro _; rfl)

theorem Untimed.count (same : Untimed st u) (id : Nat) (f : Counters → Counters) :
    Untimed (st.count id f) (u.count id f) :=
  same.modifyNode id (by intro _; rfl)

theorem Untimed.branch (same : Untimed st u) (id : Nat) (var : VarId) :
    (u.branch id var).1 = (st.branch id var).1 ∧
      Untimed (st.branch id var).2 (u.branch id var).2 := by
  unfold SearchState.branch
  rw [same.progress, Progress.getElem?_untimed, same.store, ← same.progress]
  cases st.progress[id]? with
  | none => exact ⟨rfl, same⟩
  | some n =>
    let order := (n.valueOrder.candidates st.store var).2
    have moved := same.modifyNode (f := ({ · with valueOrder := order })) id (by intro _; rfl)
    exact ⟨rfl, rfl, moved.progress, same.objective, same.listener⟩

theorem Untimed.decide (same : Untimed st u) (id : Nat) (bound : Option VarId) (choice : Choice) :
    (u.decide id bound choice).1 = (st.decide id bound choice).1 ∧
      Untimed (st.decide id bound choice).2 (u.decide id bound choice).2 := by
  have tried : Untimed (st.tried id bound choice) (u.tried id bound choice) := by
    unfold SearchState.tried
    rw [same.store, same.incumbent]
    exact ⟨rfl, (same.count id _).progress, same.objective, same.listener⟩
  rw [decide_eq, decide_eq, same.store, same.incumbent]
  refine ⟨rfl, ?_⟩
  split
  · exact tried
  · exact ⟨congrArg Store.popLevel tried.store, tried.progress, tried.objective, tried.listener⟩

theorem Untimed.setIncumbent (same : Untimed st u) (node : SearchNode) :
    Untimed (st.setIncumbent node) (u.setIncumbent node) := by
  unfold SearchState.setIncumbent
  rw [same.store]
  split
  · exact same
  · refine ⟨rfl, same.progress, ?_, same.listener⟩
    simp only [Context.setIncumbent, Context.note, same.objective]

theorem Untimed.acceptAt [Reporter ρ] (same : Untimed st u) (id : Nat) (node : SearchNode) :
    (u.acceptAt id node).1 = (st.acceptAt id node).1 ∧
      Untimed (st.acceptAt id node).2 (u.acceptAt id node).2 := by
  have handed : Untimed (st.handed id) (u.handed id) := by
    have accepted : (u.context.accept u.store).2.listener =
        (st.context.accept st.store).2.listener := by
      show (u.context.listener.accept u.store).2 = (st.context.listener.accept st.store).2
      rw [same.store, same.listener]
    refine ⟨same.store, ?_, same.objective, accepted⟩
    unfold handed
    simp only [accepted]
    exact ((same.setState id .solutionAtLeaf).count id _).progress
  rw [acceptAt_eq, acceptAt_eq, same.store, same.listener]
  exact ⟨rfl, handed.setIncumbent node⟩

/-- As long as the time is not up, a run with a deadline does what the one without does. -/
theorem cutsShort_untimed [Reporter ρ] :
    CutsShort .timedOut (Untimed : SearchState ρ → SearchState ρ → Prop) where
  ends := nofun
  store same := same.store
  accepted same := congrArg Listener.count same.listener
  setState id state same := same.setState id state
  count id f same := same.count id f
  popLevel same := ⟨congrArg Store.popLevel same.store, same.progress, same.objective,
    same.listener⟩
  branch id var same := same.branch id var
  decide id bound choice same := same.decide id bound choice
  timeOut same := ⟨same.store, same.progress, same.objective, same.listener⟩
  expired {st u} id same := by
    have unread : u.expired id = (false, u) := by
      unfold SearchState.expired
      rw [same.progress, Progress.deadline?_untimed]
    rw [unread]
    unfold SearchState.expired
    cases st.progress.deadline? id with
    | none => exact .inr ⟨rfl, same⟩
    | some deadline =>
      cases late : Decidable.decide (deadline ≤ st.context.readClock.1) with
      | true => exact .inl ⟨late, rfl⟩
      | false => exact .inr ⟨late.symm, same.store, same.progress, same.objective, same.listener⟩
  acceptAt id node same := .inr (same.acceptAt id node)

end SearchState

namespace SearchTree

variable {ρ : Type} [Reporter ρ] {t : SearchTree} {st : SearchState ρ} {steps : List (SearchStep ρ)}

omit [Reporter ρ] in
/-- The two runs begin alike. -/
theorem Grown.untimed_started (grown : t.Grown) (nodes : st.progress.size = t.size) :
    SearchState.Untimed (SearchState.started t st) (SearchState.started t st.unlimited) := by
  have all (id : Nat) (inside : id < st.progress.size) : id ∈ t.preOrder :=
    grown.mem_preOrder_iff.2 (nodes ▸ inside)
  obtain ⟨listener, objective, -⟩ := SearchState.deadline?_context st.context
  exact ⟨rfl, (Progress.untimed_start _ _ all).symm, objective.symm, listener.symm⟩

/-- What a run with a time limit hands over, the run without one hands over first. -/
theorem Follows.exists_unlimited (grown : t.Grown) (nodes : st.progress.size = t.size)
    (follows : t.Follows st steps) : ∃ whole, t.Follows st.unlimited whole ∧
      SearchStep.accepted steps <+: SearchStep.accepted whole := by
  cases follows with
  | empty none => exact ⟨[], .empty none, List.prefix_rfl⟩
  | inconsistent found fails => exact ⟨[], .inconsistent found fails, List.prefix_rfl⟩
  | @searched root _ _ found succeeds course =>
    obtain ⟨whole, _, course', tracked⟩ := course.exists_tracked
      SearchState.cutsShort_untimed.tracks ((grown.untimed_started nodes).setState root .labeling)
    exact ⟨whole, .searched found succeeds course', tracked.first⟩

end SearchTree

end StagedSearch
