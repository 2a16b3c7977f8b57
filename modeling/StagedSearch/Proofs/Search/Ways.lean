/-
# The ways that a search finds

A search for all solutions hands over the stores at the ends of the ways through its tree, in
order, if nothing ends it early, no solution has to be better than another one, and the value
orders are not random. So what such a search finds can be read off the tree and the store alone.

The induction is on the course of the search. What every state needs is that the value orders do
not move; a random one would, and its ways would depend on how many decisions were taken before.
-/

import StagedSearch.Search.Ways
import StagedSearch.Proofs.Search.NodeStates

namespace StagedSearch

/-- A value order that lists the candidates of a variable in random order. -/
def ValueOrder.IsRandom : ValueOrder → Prop
  | random _ => True
  | _ => False

instance : DecidablePred ValueOrder.IsRandom
  | .random _ => .isTrue trivial
  | .ascending | .descending | .middleOut | .smallestElement | .largestElement => .isFalse id

/-- Only a random order moves on. -/
theorem ValueOrder.candidates_snd {order : ValueOrder} (fixed : ¬ order.IsRandom) (s : Store)
    (var : VarId) : (order.candidates s var).2 = order := by
  cases order with
  | random generator => exact absurd trivial fixed
  | _ =>
    unfold candidates
    split <;> first | rfl | (split <;> rfl) | simp_all

namespace SearchTree

/-- Every node still has its own value order, and this is not a random one. -/
def Steady (t : SearchTree) (progress : Progress) : Prop :=
  ∀ id node, t.node? id = some node →
    ∃ n, progress[id]? = some n ∧ n.valueOrder = node.search.valueOrder ∧ ¬ n.valueOrder.IsRandom

/-- Before the first run the value orders of the nodes are their own. -/
theorem steady_ofTree {t : SearchTree}
    (fixed : ∀ node ∈ t.nodes, ¬ node.search.valueOrder.IsRandom) :
    t.Steady (Progress.ofTree t) := by
  intro id node here
  refine ⟨⟨.ready, none, Counters.zero, node.search.valueOrder⟩, ?_, rfl,
    fixed node (Array.mem_of_getElem? here)⟩
  unfold Progress.ofTree
  rw [Array.getElem?_map, show t.nodes[id]? = some node from here]
  rfl

theorem Steady.modifyNode {t : SearchTree} {progress : Progress} (steady : t.Steady progress)
    (id : NodeId) {f : NodeProgress → NodeProgress}
    (keeps : ∀ n, progress[id]? = some n → ¬ n.valueOrder.IsRandom →
      (f n).valueOrder = n.valueOrder) :
    t.Steady (progress.modifyNode id f) := by
  intro other node here
  obtain ⟨n, found, own, fixed⟩ := steady other node here
  rw [SearchState.getElem?_modifyNode, found]
  split
  · rename_i same
    have kept := keeps n (same ▸ found) fixed
    exact ⟨f n, rfl, kept.trans own, kept.symm ▸ fixed⟩
  · exact ⟨n, rfl, own, fixed⟩

theorem Steady.setState {t : SearchTree} {progress : Progress} (steady : t.Steady progress)
    (id : NodeId) (state : NodeState) : t.Steady (progress.setState id state) :=
  steady.modifyNode id fun _ _ _ => rfl

theorem Steady.count {t : SearchTree} {progress : Progress} (steady : t.Steady progress)
    (id : NodeId) (f : Counters → Counters) : t.Steady (progress.count id f) :=
  steady.modifyNode id fun _ _ _ => rfl

end SearchTree

namespace SearchState

variable {ρ : Type} [Reporter ρ] {t : SearchTree} {st : SearchState ρ}

/-- A state from which a search goes on to the end, and lists candidates as its tree says. -/
structure Regular (t : SearchTree) (st : SearchState ρ) : Prop where
  steady : t.Steady st.progress
  undisturbed : Undisturbed st

theorem Regular.of_quiet {st' : SearchState ρ} (regular : Regular t st) (quiet : Quiet t st st')
    (steady : t.Steady st'.progress) : Regular t st' :=
  ⟨steady, regular.undisturbed.of_quiet quiet⟩

/-- Every step of a search leaves the value orders of the nodes as they are, unless they are
random. -/
theorem kept_steady (t : SearchTree) : Kept t fun st : SearchState ρ => t.Steady st.progress where
  setState _ id state steady := steady.setState id state
  count _ id f _ steady := steady.count id f
  branch st id var steady := by
    unfold SearchState.branch
    split
    · exact steady
    · rename_i n here
      refine steady.modifyNode id fun n' here' fixed => ?_
      obtain rfl := Option.some.inj (here.symm.trans here')
      exact ValueOrder.candidates_snd fixed st.store var
  expired st id steady := by
    unfold SearchState.expired
    split <;> exact steady
  timeOut _ steady := steady
  decide st id bound choice steady := by
    have tried : t.Steady (st.tried id bound choice).progress := steady.count id _
    rw [decide_eq]
    show t.Steady (if _ then _ else _ : SearchState ρ).progress
    split
    · exact tried
    · exact tried
  popLevel _ steady := steady
  acceptAt st id node _ _ steady := by
    rw [acceptAt_eq]
    show t.Steady ((st.handed id).setIncumbent node).progress
    rw [(setIncumbent_keeps (st.handed id) node).2.1]
    exact (steady.setState id .solutionAtLeaf).count id _

theorem kept_regular (t : SearchTree) : Kept t (Regular t : SearchState ρ → Prop) where
  setState st id state regular := regular.of_quiet (quiet_setState t st id state)
    ((kept_steady t).setState st id state regular.steady)
  count st id f keeps regular := regular.of_quiet (quiet_count t st id f)
    ((kept_steady t).count st id f keeps regular.steady)
  branch st id var regular := regular.of_quiet (quiet_branch t st id var)
    ((kept_steady t).branch st id var regular.steady)
  expired st id regular := regular.of_quiet (quiet_expired t st id)
    ((kept_steady t).expired st id regular.steady)
  timeOut _ regular := ⟨regular.steady, regular.undisturbed.deadlines, regular.undisturbed.endless⟩
  decide st id bound choice regular :=
    ⟨(kept_steady t).decide st id bound choice regular.steady, regular.undisturbed.decide rfl⟩
  popLevel _ regular :=
    ⟨regular.steady, regular.undisturbed.deadlines, regular.undisturbed.endless⟩
  acceptAt st id node here last regular :=
    ⟨(kept_steady t).acceptAt st id node here last regular.steady,
      ((orderly_acceptAt st id node).undisturbed regular.undisturbed).2⟩

omit [Reporter ρ] in
/-- A run begins with the value orders as they are. -/
theorem steady_started (steady : t.Steady st.progress) : t.Steady (started t st).progress := by
  intro id node here
  obtain ⟨n, found, own, fixed⟩ := steady id node here
  show ∃ n, (st.progress.start _ _)[id]? = some n ∧ _
  rw [Progress.getElem?_start, found]
  split
  · exact ⟨_, rfl, own, fixed⟩
  · exact ⟨n, rfl, own, fixed⟩

end SearchState

/-- Without a bound the incumbent does not matter. -/
theorem Store.attempt_none (s : Store) (choice : Choice) (incumbent : Option Int) :
    s.attempt choice none incumbent = s.attempt choice none none := by
  unfold Store.attempt Store.improveOn
  rfl

namespace SearchTree

/-! ## Choosing -/

section Choosing

variable {α : Type} {after : Pick → α → α} {below : PathState → Store → List α}
  {decorators : List Decorator} {path path' : PathState} {s : Store} {size index : Nat}
  {choice : Choice} {rest : List Choice}

/-- A candidate that is left out ends the choosing. -/
theorem choose_of_refused
    (refused : Decorator.stepAll? decorators path index size = none) (choices : List Choice) :
    choose after below decorators path s size index choices = [] := by
  cases choices with
  | nil => rfl
  | cons choice rest => simp only [choose, refused]

/-- A candidate that is not left out, and those after it. -/
theorem choose_of_admitted
    (admitted : Decorator.stepAll? decorators path index size = some path') :
    choose after below decorators path s size index (choice :: rest) =
      (if (s.pushLevel.attempt choice none none).1 then
        (below path' (s.pushLevel.attempt choice none none).2).map (after ⟨index, size⟩) else []) ++
        choose after below decorators path s size (index + 1) rest := by
  simp only [choose, admitted]

/-- What is found at once is found by going on from what is found first. -/
theorem choose_flatMap {β : Type} {onward : β → List α} {afterwards : Pick → β → β}
    {first : PathState → Store → List β}
    (keeps : ∀ pick b, onward (afterwards pick b) = (onward b).map (after pick))
    (index : Nat) (choices : List Choice) :
    (choose afterwards first decorators path s size index choices).flatMap onward =
      choose after (fun next u => (first next u).flatMap onward) decorators path s size index
        choices := by
  induction choices generalizing index with
  | nil => rfl
  | cons choice rest ih =>
    cases step : Decorator.stepAll? decorators path index size with
    | none =>
      rw [choose_of_refused step, choose_of_refused step]
      rfl
    | some next =>
      rw [choose_of_admitted step, choose_of_admitted step, List.flatMap_append, ih]
      split
      · rw [List.flatMap_map, List.map_flatMap]
        simp only [keeps]
      · rfl

end Choosing

/-! ## Ways, by what is to be done -/

section Ways

variable {t : SearchTree} {id : NodeId} {node : SearchNode} {s : Store} {var : VarId}

theorem ways_of_missing (none : t.node? id = none) (frames : Nat) (path : PathState) (s : Store) :
    t.ways frames id path s = [] := by
  cases frames <;> simp [ways, none]

theorem ways_of_decided (here : t.node? id = some node)
    (decided : node.search.variableOrder.select? s node.vars = none) (frames : Nat)
    (path : PathState) : t.ways (frames + 1) id path s = t.waysOnward id frames s := by
  simp only [ways, waysOnward, children, here, decided]

theorem ways_of_picked (here : t.node? id = some node)
    (picked : node.search.variableOrder.select? s node.vars = some var) (frames : Nat)
    (path : PathState) : t.ways (frames + 1) id path s =
      choose Way.after (t.ways frames id) node.decorators path s (listed node s var).size 0
        (listed node s var).candidates.toList := by
  simp only [ways, here, picked]

theorem stageWays_of_missing (none : t.node? id = none) (frames : Nat) (path : PathState)
    (s : Store) : t.stageWays frames id path s = [] := by
  cases frames <;> simp [stageWays, none]

theorem stageWays_of_decided (here : t.node? id = some node)
    (decided : node.search.variableOrder.select? s node.vars = none) (frames : Nat)
    (path : PathState) : t.stageWays (frames + 1) id path s = [⟨[], s, frames⟩] := by
  simp only [stageWays, here, decided]

theorem stageWays_of_picked (here : t.node? id = some node)
    (picked : node.search.variableOrder.select? s node.vars = some var) (frames : Nat)
    (path : PathState) : t.stageWays (frames + 1) id path s =
      choose StageWay.after (t.stageWays frames id) node.decorators path s
        (listed node s var).size 0 (listed node s var).candidates.toList := by
  simp only [stageWays, here, picked]

/-- A way goes through its first stage, and then onward from there. -/
theorem ways_eq_flatMap (t : SearchTree) (frames : Nat) (id : NodeId) (path : PathState)
    (s : Store) : t.ways frames id path s = (t.stageWays frames id path s).flatMap fun e =>
      (t.waysOnward id e.frames e.store).map (Way.along e.here) := by
  induction frames generalizing path s with
  | zero => rfl
  | succ frames ih =>
    cases here : t.node? id with
    | none =>
      rw [ways_of_missing here, stageWays_of_missing here]
      rfl
    | some node =>
      cases picked : node.search.variableOrder.select? s node.vars with
      | none =>
        rw [ways_of_decided here picked, stageWays_of_decided here picked, List.flatMap_singleton]
        exact (List.map_id _).symm
      | some var =>
        have keeps (pick : Pick) (e : StageWay) :
            (t.waysOnward id (e.after pick).frames (e.after pick).store).map
                (Way.along (e.after pick).here) =
              ((t.waysOnward id e.frames e.store).map (Way.along e.here)).map (Way.after pick) := by
          rw [List.map_map]
          rfl
        rw [ways_of_picked here picked, stageWays_of_picked here picked, choose_flatMap keeps]
        simp only [← ih]

end Ways

variable {ρ : Type} [Reporter ρ] {t : SearchTree} {frames : Nat} {task : SearchTask}
  {st : SearchState ρ} {steps : List (SearchStep ρ)} {outcome : Flow × SearchState ρ}

def waysOf (t : SearchTree) (frames : Nat) : SearchTask → Store → List Way
  | .label id _ path, s => t.ways frames id path s
  | .trials id _ path size index candidates, s =>
    match t.node? id with
    | none => []
    | some node =>
      choose Way.after (t.ways frames id) node.decorators path s size index candidates.toList

omit [Reporter ρ] in
theorem waysOf_trials {id : NodeId} {node : SearchNode} (here : t.node? id = some node)
    (frames depth : Nat) (path : PathState) (size index : Nat) (candidates : Candidates)
    (s : Store) : t.waysOf frames (.trials id depth path size index candidates) s =
      choose Way.after (t.ways frames id) node.decorators path s size index
        candidates.toList := by
  simp only [waysOf, here]

/-- Whatever a course does, it is orderly. -/
theorem Course.orderly (course : t.Course frames task st steps outcome) :
    SearchState.Orderly st outcome := by
  rw [← course.outcome_eq]
  cases task with
  | label id depth path => exact SearchState.orderly_label t frames id depth path st
  | trials id depth path size index candidates =>
    unfold perform
    dsimp only
    split
    · exact .refl st
    · exact SearchState.orderly_tryCandidates
        (fun path st => SearchState.orderly_label t frames id (depth + 1) path st) _ _ _ _ _ _ _

/-- Closing a level after a course leads to where closing it before would have led. -/
theorem Course.store_popLevel (course : t.Course frames task st steps outcome)
    (formed : st.store.Formed) : outcome.2.popLevel.store = st.store.popLevel :=
  congrArg Store.popLevel (course.orderly.store formed)

end SearchTree

namespace Candidates

theorem toList_of_next?_eq_none {candidates : Candidates} (none : candidates.next? = .none) :
    candidates.toList = [] := by
  have meant := candidates.toList_of_next?
  rwa [none] at meant

theorem toList_of_next?_eq_some {candidates rest : Candidates} {choice : Choice}
    (next : candidates.next? = some (choice, rest)) :
    candidates.toList = choice :: rest.toList := by
  have meant := candidates.toList_of_next?
  rwa [next] at meant

end Candidates

namespace SearchState

variable {ρ : Type} {t : SearchTree} {st st' : SearchState ρ} {node : SearchNode}

/-- A steady node lists its candidates in its own order. -/
theorem branching_of_listed (steady : t.Steady st.progress) {id : NodeId}
    (here : t.node? id = some node) {var : VarId} {f : Counters → Counters} {branching : Branching}
    (listed : (st.count id f).branch id var = (branching, st')) :
    branching = SearchTree.listed node st.store var := by
  obtain ⟨n, found, own, -⟩ := steady.count id f id node here
  have found' : (st.count id f).progress[id]? = some n := found
  unfold SearchState.branch at listed
  rw [found'] at listed
  rw [SearchTree.listed, ← own]
  exact (Prod.mk.inj listed).1.symm

/-- Without a bound a candidate succeeds or fails by itself. -/
theorem attempt_of_decide {id : NodeId} {choice : Choice} {consistent : Bool}
    (tried : st.decide id none choice = (consistent, st')) :
    (st.store.pushLevel.attempt choice none none).1 = consistent ∧
      (consistent = true → st'.store = (st.store.pushLevel.attempt choice none none).2) := by
  rw [decide_eq, Store.attempt_none] at tried
  obtain ⟨outcome, rfl⟩ := Prod.mk.inj tried
  refine ⟨outcome, fun succeeds => ?_⟩
  rw [outcome, if_pos succeeds, SearchState.tried, Store.attempt_none]
  rfl

end SearchState

namespace SearchTree

variable {ρ : Type} [Reporter ρ] {t : SearchTree} {frames : Nat} {task : SearchTask}
  {st : SearchState ρ} {steps : List (SearchStep ρ)} {outcome : Flow × SearchState ρ}

/-! ## What a search finds -/

/-- Some picks are decided at a node, from a depth on. -/
def Takes (steps : List (SearchStep ρ)) (id : NodeId) (depth : Nat) (picks : List Pick) : Prop :=
  ∀ place pick, picks[place]? = some pick → ∃ trial st, .decide trial st ∈ steps ∧
    trial.id = id ∧ trial.depth = depth + place ∧ trial.index = pick.index ∧
      trial.size = pick.size

/-- All picks of a way are decided. -/
structure TakesWay (steps : List (SearchStep ρ)) (id : NodeId) (depth : Nat) (w : Way) :
    Prop where
  here : Takes steps id depth w.here
  later : ∀ stage ∈ w.later, Takes steps stage.1 0 stage.2

/-- Some steps take some ways, and hand over the stores at their ends, in order. -/
structure Finds (steps : List (SearchStep ρ)) (id : NodeId) (depth : Nat) (ws : List Way) :
    Prop where
  accepted : SearchStep.accepted steps = ws.map Way.leaf
  taken : ∀ w ∈ ws, TakesWay steps id depth w

section Finding

omit [Reporter ρ]

variable {id : NodeId} {depth : Nat} {steps' : List (SearchStep ρ)} {ws ws' : List Way}

theorem takes_nil (steps : List (SearchStep ρ)) (id : NodeId) (depth : Nat) :
    Takes steps id depth [] := by
  intro place pick found
  cases found

theorem Takes.mono {picks : List Pick} (takes : Takes steps id depth picks)
    (more : steps ⊆ steps') : Takes steps' id depth picks := fun place pick found =>
  let ⟨trial, st, decides, same⟩ := takes place pick found
  ⟨trial, st, more decides, same⟩

theorem TakesWay.mono {w : Way} (takes : TakesWay steps id depth w) (more : steps ⊆ steps') :
    TakesWay steps' id depth w :=
  ⟨takes.here.mono more, fun stage member => (takes.later stage member).mono more⟩

/-- A pick that is decided comes before those that are decided below it. -/
theorem Takes.cons {trial : Trial} {picks : List Pick} (decides : .decide trial st ∈ steps)
    (takes : Takes steps trial.id (trial.depth + 1) picks) :
    Takes steps trial.id trial.depth (⟨trial.index, trial.size⟩ :: picks) := by
  intro place pick found
  cases place with
  | zero =>
    obtain rfl := Option.some.inj found
    exact ⟨trial, st, decides, rfl, rfl, rfl, rfl⟩
  | succ place =>
    obtain ⟨other, st', decides', id, depth, same⟩ := takes place pick found
    exact ⟨other, st', decides', id, by omega, same⟩

/-- Where nothing is handed over, nothing is found. -/
theorem finds_nil (none : SearchStep.accepted steps = []) (id : NodeId) (depth : Nat) :
    Finds steps id depth [] :=
  ⟨none, List.forall_mem_nil _⟩

theorem Finds.append (first : Finds steps id depth ws) (second : Finds steps' id depth ws') :
    Finds (steps ++ steps') id depth (ws ++ ws') where
  accepted := by
    rw [SearchStep.accepted_append, first.accepted, second.accepted, List.map_append]
  taken w member := (List.mem_append.1 member).elim
    (fun found => (first.taken w found).mono (List.subset_append_left steps steps'))
    (fun found => (second.taken w found).mono (List.subset_append_right steps steps'))

/-- What is found is found after a candidate that fails as well. -/
theorem Finds.after_failed (finds : Finds steps id depth ws) (trial : Trial)
    (st st' : SearchState ρ) :
    Finds (.look trial st :: .decide trial st' :: steps) id depth ws where
  accepted := finds.accepted
  taken w member := (finds.taken w member).mono fun _ among => by simp [among]

/-- What is found below a candidate is found through that candidate. -/
theorem Finds.below {trial : Trial} (finds : Finds steps trial.id (trial.depth + 1) ws)
    (st st' : SearchState ρ) :
    Finds (.look trial st :: .decide trial st' :: steps) trial.id trial.depth
      (ws.map (Way.after ⟨trial.index, trial.size⟩)) where
  accepted := by
    rw [List.map_map]
    exact finds.accepted
  taken w member := by
    obtain ⟨inner, found, rfl⟩ := List.mem_map.1 member
    have further : TakesWay (.look trial st :: .decide trial st' :: steps) trial.id
        (trial.depth + 1) inner := (finds.taken inner found).mono fun _ among => by simp [among]
    have decides : .decide trial st' ∈ .look trial st :: .decide trial st' :: steps := by simp
    exact ⟨further.here.cons decides, further.later⟩

/-- What is found from a child on is found through its parent. -/
theorem Finds.into {child : NodeId} (finds : Finds steps child 0 ws) (id : NodeId) (depth : Nat) :
    Finds steps id depth (ws.map (Way.into child)) where
  accepted := by
    rw [List.map_map]
    exact finds.accepted
  taken w member := by
    obtain ⟨inner, found, rfl⟩ := List.mem_map.1 member
    have further := finds.taken inner found
    exact ⟨takes_nil steps id depth, List.forall_mem_cons.2 ⟨further.here, further.later⟩⟩

end Finding

/-- A course that goes on finds the ways of its task. -/
theorem Course.finds (boundless : ∀ node ∈ t.nodes, node.bound = none)
    (course : t.Course frames task st steps outcome) (formed : st.store.Formed)
    (regular : st.Regular t) :
    Finds steps task.node task.depth (t.waysOf frames task st.store) := by
  have kept : SearchState.Kept t (SearchState.Regular t : SearchState ρ → Prop) :=
    SearchState.kept_regular t
  induction course with
  | spent => exact finds_nil rfl _ _
  | missing none =>
    rw [waysOf, ways_of_missing none]
    exact finds_nil rfl _ _
  | solved here decided last =>
    simp only [waysOf, ways_of_decided here decided, waysOnward, children, here, last]
    refine ⟨rfl, fun w member => ?_⟩
    obtain rfl := List.mem_singleton.1 member
    exact ⟨takes_nil _ _ _, List.forall_mem_nil _⟩
  | descended here decided next _ ih =>
    simp only [waysOf, ways_of_decided here decided, waysOnward, children, here, next]
    exact (ih formed (kept.setState _ _ _ regular)).into _ _
  | branched here picked listed trials ih =>
    have quiet := SearchState.quiet_of_listed t listed
    have tried := ih (quiet.store ▸ formed) (kept.of_listed regular listed fun _ => rfl)
    rw [waysOf_trials here, quiet.store,
      SearchState.branching_of_listed regular.steady here listed] at tried
    rw [waysOf, ways_of_picked here picked]
    exact tried
  | @emptied _ id _ _ _ _ _ _ none =>
    unfold waysOf
    dsimp only
    rw [Candidates.toList_of_next?_eq_none none]
    split <;> exact finds_nil rfl _ _
  | @late _ id _ _ _ _ _ _ _ _ _ _ _ _ expired =>
    have inTime := regular.undisturbed.expired id
    rw [expired] at inTime
    cases inTime
  | pruned here next _ refused =>
    rw [waysOf_trials here, choose_of_refused refused]
    exact finds_nil rfl _ _
  | failed here next inTime admitted fails _ ih =>
    have looked := SearchState.quiet_of_expired t inTime
    have quiet := looked.trans (SearchState.quiet_decide (looked.store ▸ formed) fails t)
    have regular' := kept.of_decide (kept.of_expired regular inTime) fails
    rw [boundless _ (Array.mem_of_getElem? here)] at fails
    have alone := (SearchState.attempt_of_decide fails).1
    rw [looked.store] at alone
    have later := ih (quiet.store ▸ formed) regular'
    rw [waysOf_trials here, quiet.store] at later
    rw [waysOf_trials here, Candidates.toList_of_next?_eq_some next, choose_of_admitted admitted,
      alone]
    exact later.after_failed _ _ _
  | @returned _ _ _ _ _ _ _ _ _ _ _ _ _ st₃ _ _ _ _ here next inTime admitted enters below _ ihBelow
      ihLater =>
    have looked := SearchState.quiet_of_expired t inTime
    have entered := SearchState.entered_decide (looked.store ▸ formed) enters t
    have regular' := kept.of_decide (kept.of_expired regular inTime) enters
    have regular'' := kept.popLevel _ (below.invariant kept regular').1
    have again : st₃.popLevel.store = _ :=
      ((below.store_popLevel entered.descends.formed).trans entered.back).trans looked.store
    rw [boundless _ (Array.mem_of_getElem? here)] at enters
    obtain ⟨alone, tried⟩ := SearchState.attempt_of_decide enters
    rw [looked.store] at alone tried
    have inside := ihBelow entered.descends.formed regular'
    rw [tried rfl] at inside
    have outside := ihLater (again.symm ▸ formed) regular''
    rw [waysOf_trials here, again] at outside
    rw [waysOf_trials here, Candidates.toList_of_next?_eq_some next, choose_of_admitted admitted,
      if_pos alone]
    exact (inside.below _ _).append outside
  | ended _ _ inTime _ enters below ends _ =>
    have regular' := kept.of_decide (kept.of_expired regular inTime) enters
    exact absurd (below.orderly.undisturbed regular'.undisturbed).1 ends

/-! ## Whole runs -/

/-- After a run the value orders are as they were before, so that the next run over the tree
lists candidates in the same way. -/
theorem steady_run (steady : t.Steady st.progress) : t.Steady (t.run st).2.progress := by
  have kept := SearchState.kept_steady (ρ := ρ) t
  have started := SearchState.steady_started steady
  obtain ⟨steps, follows⟩ := t.exists_follows st
  cases follows with
  | empty none =>
    rw [SearchState.run_eq_of_empty (root?_eq_none_iff.1 none)]
    exact steady
  | inconsistent found fails =>
    rw [run_of_inconsistent found fails]
    exact kept.popLevel _ (kept.setState _ _ _ started)
  | searched found succeeds course =>
    rw [course.run_eq found succeeds]
    have after := (course.invariant kept (kept.setState _ _ _ started)).1
    exact kept.popLevel _ (kept.setState _ _ _ after)

/-- A run that is to find all solutions of a satisfaction, in value orders that are not random. -/
structure Enumerates (t : SearchTree) (st : SearchState ρ) : Prop where
  grown : t.Grown
  nodes : st.progress.size = t.size
  reached : st.store.Reachable
  boundless : ∀ node ∈ t.nodes, node.bound = none
  steady : t.Steady st.progress
  endless : st.context.listener.Endless
  unlimited : st.context.timeLimit = none

theorem Enumerates.regular (enumerates : t.Enumerates st) :
    (SearchState.started t st).Regular t := by
  obtain ⟨listener, -, deadline⟩ := SearchState.deadline?_context st.context
  refine ⟨SearchState.steady_started enumerates.steady, fun id => ?_, ?_⟩
  · show (st.progress.start _ _).deadline? id = none
    unfold Progress.deadline?
    rw [Progress.getElem?_start, deadline enumerates.unlimited]
    by_cases inside : id < t.size
    · rw [if_pos (enumerates.grown.mem_preOrder_iff.2 inside)]
      cases st.progress[id]? <;> rfl
    · rw [Array.getElem?_eq_none (enumerates.nodes ▸ Nat.le_of_not_lt inside)]
      split <;> rfl
  · show st.context.deadline?.2.listener.Endless
    rw [listener]
    exact enumerates.endless

/-- The steps of a run take some ways, and hand over the stores at their ends, in order. -/
structure FindsAll (t : SearchTree) (steps : List (SearchStep ρ)) (ws : List Way) : Prop where
  accepted : SearchStep.accepted steps = ws.map Way.leaf
  taken : ∀ root, t.root? = some root → ∀ w ∈ ws, TakesWay steps root 0 w

/-- A run finds the ways of its tree. -/
theorem Enumerates.findsAll (enumerates : t.Enumerates st) (follows : t.Follows st steps) :
    t.FindsAll steps (t.waysFrom st.store) := by
  cases follows with
  | empty none =>
    unfold waysFrom
    rw [none]
    exact ⟨rfl, fun _ _ => List.forall_mem_nil _⟩
  | inconsistent found fails =>
    unfold waysFrom
    rw [found, fails]
    exact ⟨rfl, fun _ _ => List.forall_mem_nil _⟩
  | @searched root _ _ found succeeds course =>
    have formed : (SearchState.started t st).store.Formed :=
      enumerates.reached.formed.pushLevel.consistency
    have regular := (SearchState.kept_regular t).setState _ root .labeling enumerates.regular
    have finds := course.finds enumerates.boundless formed regular
    unfold waysFrom
    simp only [found, succeeds, if_true]
    refine ⟨finds.accepted, ?_⟩
    rintro _ same
    obtain rfl := Option.some.inj (found.symm.trans same)
    exact finds.taken

end SearchTree

end StagedSearch
