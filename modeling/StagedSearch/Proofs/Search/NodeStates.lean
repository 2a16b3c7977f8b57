/-
# The states of the nodes

Where a search is leaves a mark on the nodes: a node that is labeled, or has been, is not in the
state in which it started. A frame marks its own node only, and the state of a node is settled
when its frames return. So when a task at a node returns, the older nodes are as they were, and
every younger one is ready or exhausted again, unless the time was up. Then those are timed out
that lie on the way from the node to the place where this was noticed.

The way is carried through the induction as a list, from the place up to the node. It is the
beginning of the place and its ancestors, because the ancestors of a child are its parent and
the ancestors of its parent; nothing else of the tree is needed.
-/

import StagedSearch.Proofs.Search.Course
import StagedSearch.Proofs.Tree.Grown

namespace StagedSearch

namespace Progress

def state? (p : Progress) (id : Nat) : Option NodeState := p[id]?.map NodeProgress.state

theorem state?_modifyNode (p : Progress) (id other : Nat) {f : NodeProgress → NodeProgress}
    (keeps : ∀ n, (f n).state = n.state) : (p.modifyNode id f).state? other = p.state? other := by
  unfold state?
  rw [SearchState.getElem?_modifyNode]
  split
  · rw [Option.map_map]
    congr 1
    funext n
    exact keeps n
  · rfl

theorem state?_setState (p : Progress) (id other : Nat) (state : NodeState) :
    (p.setState id state).state? other =
      if id = other then (p.state? other).map fun _ => state else p.state? other := by
  unfold state? setState
  rw [SearchState.getElem?_modifyNode]
  split
  · rw [Option.map_map, Option.map_map]
    rfl
  · rfl

theorem state?_setState_of_ne (p : Progress) {id other : Nat} (state : NodeState)
    (apart : other ≠ id) : (p.setState id state).state? other = p.state? other := by
  rw [state?_setState, if_neg (Ne.symm apart)]

/-- A run starts with the listed nodes ready, and with their deadline. -/
theorem getElem?_start (p : Progress) (deadline : Option Nat) (ids : List NodeId) (id : Nat) :
    (p.start deadline ids)[id]? =
      if id ∈ ids then p[id]?.map fun n => { n with deadline, state := .ready } else p[id]? := by
  unfold start
  induction ids generalizing p with
  | nil => rfl
  | cons first rest ih =>
    rw [List.foldl_cons, ih, SearchState.getElem?_modifyNode]
    by_cases again : id ∈ rest <;> by_cases here : first = id
    · simp [again, here, Function.comp_def]
    · simp [again, here]
    · subst here
      simp [again]
    · simp [again, here, Ne.symm here]

theorem size_start (p : Progress) (deadline : Option Nat) (ids : List NodeId) :
    (p.start deadline ids).size = p.size := by
  unfold start
  induction ids generalizing p with
  | nil => rfl
  | cons first rest ih => exact (ih _).trans Array.size_modify

/-- A node is at rest, or timed out in case of some event. -/
def Left (p : Progress) (id : Nat) (late : Prop) : Prop :=
  ∀ state, p.state? id = some state →
    (state = .ready ∨ state = .exhausted ∨ state = .timedOut) ∧ (state = .timedOut ↔ late)

theorem Left.of_eq {p q : Progress} {id : Nat} {late : Prop} (left : p.Left id late)
    (same : q.state? id = p.state? id) : q.Left id late := by
  unfold Left
  rwa [same]

theorem Left.of_iff {p : Progress} {id : Nat} {late late' : Prop} (left : p.Left id late)
    (same : late' ↔ late) : p.Left id late' := by
  unfold Left at left ⊢
  simpa only [same] using left

theorem left_setState (p : Progress) (id : Nat) (late : Prop) [Decidable late] :
    (p.setState id (if late then .timedOut else .exhausted)).Left id late := by
  intro state here
  rw [state?_setState, if_pos rfl] at here
  obtain ⟨_, -, rfl⟩ := Option.map_eq_some_iff.1 here
  split
  · simp_all
  · simp_all

end Progress

namespace SearchStep

variable {ρ : Type} {first second : List (SearchStep ρ)}

/-- The node at which a step finds that the time is up. -/
def late? : SearchStep ρ → Option NodeId
  | look trial st => if (st.expired trial.id).1 then some trial.id else none
  | _ => none

/-- The nodes at which it is found that the time is up, in order. -/
def noticed (steps : List (SearchStep ρ)) : List NodeId := steps.filterMap late?

@[simp]
theorem noticed_nil : noticed ([] : List (SearchStep ρ)) = [] := rfl

@[simp]
theorem noticed_decide (trial : Trial) (st : SearchState ρ) (steps : List (SearchStep ρ)) :
    noticed (decide trial st :: steps) = noticed steps := rfl

@[simp]
theorem noticed_accept (id : NodeId) (st : SearchState ρ) (steps : List (SearchStep ρ)) :
    noticed (accept id st :: steps) = noticed steps := rfl

@[simp]
theorem noticed_append : noticed (first ++ second) = noticed first ++ noticed second :=
  List.filterMap_append

theorem noticed_look_of_inTime {trial : Trial} {st st' : SearchState ρ}
    (inTime : st.expired trial.id = (false, st')) (steps : List (SearchStep ρ)) :
    noticed (look trial st :: steps) = noticed steps := by
  simp [noticed, late?, inTime]

theorem noticed_look_of_late {trial : Trial} {st st' : SearchState ρ}
    (late : st.expired trial.id = (true, st')) (steps : List (SearchStep ρ)) :
    noticed (look trial st :: steps) = trial.id :: noticed steps := by
  simp [noticed, late?, late]

theorem mem_noticed {trial : Trial} {st : SearchState ρ} {steps : List (SearchStep ρ)}
    (member : look trial st ∈ steps) (late : (st.expired trial.id).1 = true) :
    trial.id ∈ noticed steps :=
  List.mem_filterMap.2 ⟨_, member, if_pos late⟩

theorem exists_of_mem_noticed {id : NodeId} {steps : List (SearchStep ρ)}
    (member : id ∈ noticed steps) :
    ∃ trial st, look trial st ∈ steps ∧ (st.expired trial.id).1 = true ∧ trial.id = id := by
  obtain ⟨step, inside, found⟩ := List.mem_filterMap.1 member
  cases step with
  | look trial st =>
    by_cases late : (st.expired trial.id).1 = true
    · exact ⟨trial, st, inside, late, Option.some.inj ((if_pos late).symm.trans found)⟩
    · cases (if_neg late).symm.trans found
  | decide => cases found
  | accept => cases found

end SearchStep

namespace SearchState

variable {ρ : Type} {st st' st'' : SearchState ρ} {id : Nat}

def Marks (id : Nat) (st st' : SearchState ρ) : Prop :=
  ∀ other, other ≠ id → st'.progress.state? other = st.progress.state? other

theorem Marks.refl (id : Nat) (st : SearchState ρ) : Marks id st st := fun _ _ => rfl

theorem Marks.trans (first : Marks id st st') (second : Marks id st' st'') : Marks id st st'' :=
  fun other apart => (second other apart).trans (first other apart)

theorem marks_modifyNode (st : SearchState ρ) (id : Nat) {f : NodeProgress → NodeProgress}
    (keeps : ∀ n, (f n).state = n.state) (other : Nat) :
    Marks other st { st with progress := st.progress.modifyNode id f } :=
  fun _ _ => Progress.state?_modifyNode _ _ _ keeps

theorem marks_timeOut (st : SearchState ρ) (id : Nat) : Marks id st st.timeOut := .refl id st

theorem marks_popLevel (st : SearchState ρ) (id : Nat) : Marks id st st.popLevel := .refl id st

theorem marks_setState (st : SearchState ρ) (id : Nat) (state : NodeState) :
    Marks id st (st.setState id state) :=
  fun _ apart => Progress.state?_setState_of_ne _ state apart

theorem marks_count (st : SearchState ρ) (id : Nat) (f : Counters → Counters) :
    Marks id st (st.count id f) :=
  marks_modifyNode st id (by intro _; rfl) id

theorem marks_of_listed {var : VarId} {f : Counters → Counters} {branching : Branching}
    (listed : (st.count id f).branch id var = (branching, st')) : Marks id st st' := by
  refine (marks_count st id f).trans ?_
  unfold branch at listed
  split at listed
  · cases listed
    exact .refl id _
  · cases listed
    exact marks_modifyNode _ id (by intro _; rfl) id

theorem marks_of_expired {late : Bool} (expired : st.expired id = (late, st')) :
    Marks id st st' := by
  unfold SearchState.expired at expired
  split at expired <;> cases expired <;> exact .refl id _

theorem marks_of_decide {bound : Option VarId} {choice : Choice} {consistent : Bool}
    (tried : st.decide id bound choice = (consistent, st')) : Marks id st st' := by
  have keeps : Marks id st (st.tried id bound choice) := marks_modifyNode st id (by intro _; rfl) id
  rw [decide_eq] at tried
  obtain ⟨-, rfl⟩ := Prod.mk.inj tried
  split
  · exact keeps
  · exact keeps

theorem marks_acceptAt [Reporter ρ] (st : SearchState ρ) (id : Nat) (node : SearchNode) :
    Marks id st (st.acceptAt id node).2 := by
  intro other apart
  rw [acceptAt_eq, (setIncumbent_keeps _ node).2.1]
  exact (marks_setState st id .solutionAtLeaf).trans (marks_count _ id _) other apart

theorem acceptAt_ne_timedOut [Reporter ρ] (st : SearchState ρ) (id : Nat) (node : SearchNode) :
    (st.acceptAt id node).1 ≠ .timedOut := by
  rw [acceptAt_eq]
  split <;> nofun

theorem marks_ite_backtrack (st : SearchState ρ) (id before : Nat) (goesOn : Prop)
    [Decidable goesOn] : Marks id st (if goesOn then st.backtrack id before else st) := by
  unfold backtrack
  split
  · split
    · exact (marks_count st id _).trans (marks_setState _ id .backtracking)
    · exact .refl id st
  · exact .refl id st

/-- What is known of the way from a node to the place where it was noticed that the time is up, if
it was noticed. -/
inductive Way (t : SearchTree) (id : Nat) : Flow → List NodeId → List NodeId → Prop
  | inTime {flow : Flow} (goesOn : flow ≠ .timedOut) : Way t id flow [] []
  | late {place : Nat} {way : List NodeId}
      (up : place :: t.ancestors place = way ++ id :: t.ancestors id) :
      Way t id .timedOut [place] way

/-- How a task at a node leaves the nodes of a tree, if the end of the time was noticed at some
places. -/
structure Unwinds (t : SearchTree) (id : Nat) (st : SearchState ρ) (places : List NodeId)
    (outcome : Flow × SearchState ρ) : Prop where
  older : ∀ other < id, outcome.2.progress.state? other = st.progress.state? other
  younger : ∃ way, Way t id outcome.1 places way ∧ (∀ k ∈ way, id < k) ∧
    ∀ other, id < other → outcome.2.progress.Left other (other ∈ way)

def RestsBelow (id : Nat) (st : SearchState ρ) : Prop :=
  ∀ other, id < other → st.progress.Left other False

variable {t : SearchTree} {flow : Flow} {places : List NodeId} {outcome : Flow × SearchState ρ}

theorem RestsBelow.of_marks (rests : RestsBelow id st) (marks : Marks id st st') :
    RestsBelow id st' :=
  fun other younger => (rests other younger).of_eq (marks other (Nat.ne_of_gt younger))

/-- What only marks the node itself leaves the nodes as it should. -/
theorem Marks.unwinds (marks : Marks id st st') (rests : RestsBelow id st)
    (here : Way t id flow places []) : Unwinds t id st places (flow, st') where
  older other older := marks other (Nat.ne_of_lt older)
  younger := ⟨[], here, by simp, fun other younger =>
    ((rests.of_marks marks) other younger).of_iff (by simp)⟩

theorem Unwinds.after_marks (unwinds : Unwinds t id st' places outcome) (marks : Marks id st st') :
    Unwinds t id st places outcome :=
  ⟨fun other older => (unwinds.older other older).trans (marks other (Nat.ne_of_lt older)),
    unwinds.younger⟩

theorem Unwinds.then_marks (unwinds : Unwinds t id st places (flow, st'))
    (marks : Marks id st' st'') : Unwinds t id st places (flow, st'') := by
  obtain ⟨older, way, found, inside, left⟩ := unwinds
  refine ⟨fun other before => ?_, way, found, inside, fun other after => ?_⟩
  · exact (marks other (Nat.ne_of_lt before)).trans (older other before)
  · exact (left other after).of_eq (marks other (Nat.ne_of_gt after))

/-- As long as there is time no one notices anything, and younger nodes are left at rest. -/
theorem Unwinds.inTime (unwinds : Unwinds t id st places (flow, st'))
    (goesOn : flow ≠ .timedOut) : places = [] ∧ RestsBelow id st' := by
  obtain ⟨-, way, found, -, left⟩ := unwinds
  cases found with
  | inTime => exact ⟨rfl, fun other after => (left other after).of_iff (by simp)⟩
  | late => exact absurd rfl goesOn

/-- A task that goes on may be followed by another one at the same node. -/
theorem Unwinds.trans (first : Unwinds t id st places (flow, st')) (goesOn : flow ≠ .timedOut)
    {places' : List NodeId} (second : Unwinds t id st' places' outcome) :
    Unwinds t id st (places ++ places') outcome := by
  rw [(first.inTime goesOn).1, List.nil_append]
  exact ⟨fun other before => (second.older other before).trans (first.older other before),
    second.younger⟩

/-- Around the frames of a node, the way goes on to its parent. -/
theorem Unwinds.within {parent : Nat} (unwinds : Unwinds t id st' places (flow, st''))
    (marks : Marks id st st') (rests : RestsBelow parent st) (younger : parent < id)
    (up : t.ancestors id = parent :: t.ancestors parent) :
    Unwinds t parent st places
      (flow, st''.setState id (if flow = .timedOut then .timedOut else .exhausted)) := by
  obtain ⟨older, way, found, inside, left⟩ := unwinds
  have here := st''.progress.left_setState id (flow = .timedOut)
  have kept := marks_setState st'' id (if flow = .timedOut then .timedOut else .exhausted)
  -- what is older than the node has not been marked at all
  have same (other : Nat) (before : other < id) := ((kept other (Nat.ne_of_lt before)).trans
    (older other before)).trans (marks other (Nat.ne_of_lt before))
  refine ⟨fun other before => same other (before.trans younger), ?_⟩
  have settled (other : Nat) (after : parent < other) (apart : other ≠ id) :
      (st''.setState id (if flow = .timedOut then .timedOut else .exhausted)).progress.Left other
        (other ∈ way) := by
    rcases Nat.lt_or_gt_of_ne apart with before | after'
    · refine ((rests other after).of_eq (same other before)).of_iff ?_
      exact iff_false_intro fun member => Nat.lt_asymm before (inside other member)
    · exact (left other after').of_eq (kept other apart)
  cases found with
  | inTime goesOn =>
    refine ⟨[], .inTime goesOn, by simp, fun other after => ?_⟩
    by_cases own : other = id
    · subst own
      exact here.of_iff (by simpa using goesOn)
    · exact settled other after own
  | late chain =>
    refine ⟨way ++ [id], .late ?_, ?_, fun other after => ?_⟩
    · rw [chain, up, List.append_assoc, List.singleton_append]
    · intro other member
      rcases List.mem_append.1 member with member | member
      · exact younger.trans (inside other member)
      · rwa [List.mem_singleton.1 member]
    · by_cases own : other = id
      · subst own
        exact here.of_iff (by simp)
      · exact (settled other after own).of_iff (by simp [own])

end SearchState

namespace SearchTree

variable {ρ : Type} [Reporter ρ] {t : SearchTree} {frames : Nat} {task : SearchTask}
  {st : SearchState ρ} {steps : List (SearchStep ρ)} {outcome : Flow × SearchState ρ}

/-- A task leaves older nodes as they were, and younger ones at rest or timed out. -/
theorem Course.unwinds (grown : t.Grown) (course : t.Course frames task st steps outcome)
    (rests : SearchState.RestsBelow task.node st) :
    SearchState.Unwinds t task.node st (SearchStep.noticed steps) outcome := by
  induction course with
  | spent => exact (SearchState.Marks.refl _ _).unwinds rests (.inTime nofun)
  | missing => exact (SearchState.Marks.refl _ _).unwinds rests (.inTime nofun)
  | @solved _ id _ _ st node =>
    exact (SearchState.marks_acceptAt st id node).unwinds rests
      (.inTime (SearchState.acceptAt_ne_timedOut st id node))
  | @descended _ id child _ _ st _ node _ flow here _ next _ ih =>
    have below : child ∈ t.children id := by
      rw [children, here]
      exact List.mem_of_head? next
    have younger := (grown.parent_lt (grown.mem_children_iff.1 below)).1
    have marks := SearchState.marks_setState st child .labeling
    refine (ih fun other after => ?_).within marks rests younger (grown.ancestors_child below)
    exact (rests other (younger.trans after)).of_eq (marks other (Nat.ne_of_gt after))
  | branched _ _ listed _ ih =>
    have marks := SearchState.marks_of_listed listed
    exact ((ih (rests.of_marks marks)).then_marks
      (SearchState.marks_ite_backtrack _ _ _ _)).after_marks marks
  | emptied => exact (SearchState.Marks.refl _ _).unwinds rests (.inTime nofun)
  | @late _ _ _ _ _ _ _ _ _ _ st₁ _ _ _ expired =>
    rw [SearchStep.noticed_look_of_late expired]
    exact ((SearchState.marks_of_expired expired).trans
      (SearchState.marks_timeOut st₁ _)).unwinds rests (.late rfl)
  | pruned _ _ inTime _ =>
    rw [SearchStep.noticed_look_of_inTime inTime]
    exact (SearchState.marks_of_expired inTime).unwinds rests (.inTime nofun)
  | failed _ _ inTime _ fails _ ih =>
    have marks := (SearchState.marks_of_expired inTime).trans (SearchState.marks_of_decide fails)
    rw [SearchStep.noticed_look_of_inTime inTime, SearchStep.noticed_decide]
    exact (ih (rests.of_marks marks)).after_marks marks
  | returned _ _ inTime _ enters _ _ ihBelow ihLater =>
    have marks := (SearchState.marks_of_expired inTime).trans (SearchState.marks_of_decide enters)
    have below := (ihBelow (rests.of_marks marks)).then_marks (SearchState.marks_popLevel _ _)
    rw [SearchStep.noticed_look_of_inTime inTime, SearchStep.noticed_decide,
      SearchStep.noticed_append]
    exact (below.trans nofun (ihLater (below.inTime nofun).2)).after_marks marks
  | ended _ _ inTime _ enters _ _ ih =>
    have marks := (SearchState.marks_of_expired inTime).trans (SearchState.marks_of_decide enters)
    rw [SearchStep.noticed_look_of_inTime inTime, SearchStep.noticed_decide]
    exact ((ih (rests.of_marks marks)).then_marks
      (SearchState.marks_popLevel _ _)).after_marks marks

/-! ## Runs -/

omit [Reporter ρ] in
/-- A run begins with all nodes at rest. -/
theorem Grown.left_started (grown : t.Grown) (nodes : st.progress.size = t.size) (id : Nat) :
    (SearchState.started t st).progress.Left id False := by
  intro state here
  obtain ⟨n, found, rfl⟩ := Option.map_eq_some_iff.1 here
  change (st.progress.start _ _)[id]? = some n at found
  rw [Progress.getElem?_start] at found
  split at found
  · obtain ⟨_, -, rfl⟩ := Option.map_eq_some_iff.1 found
    simp
  · rename_i unlisted
    rw [grown.mem_preOrder_iff, ← nodes] at unlisted
    exact absurd (Array.getElem?_eq_some_iff.1 found).1 unlisted

omit [Reporter ρ] in
theorem Grown.restsBelow_started (grown : t.Grown) (nodes : st.progress.size = t.size)
    (id : Nat) (state : NodeState) :
    SearchState.RestsBelow id ((SearchState.started t st).setState id state) :=
  fun other after => (grown.left_started nodes other).of_eq
    (SearchState.marks_setState _ id state other (Nat.ne_of_gt after))

/-- A run leaves all nodes at rest, unless its time was up. Then those are timed out at which this
was noticed or that are above. -/
theorem Follows.left (grown : t.Grown) (nodes : st.progress.size = t.size)
    (follows : t.Follows st steps) :
    ((t.run st).1.timedOut = false ∧ SearchStep.noticed steps = [] ∧
      ∀ id, (t.run st).2.progress.Left id False) ∨
    ∃ place, (t.run st).1.timedOut = true ∧ SearchStep.noticed steps = [place] ∧
      ∀ id, (t.run st).2.progress.Left id (id = place ∨ id ∈ t.ancestors place) := by
  cases follows with
  | empty none =>
    rw [SearchState.run_eq_of_empty (root?_eq_none_iff.1 none)]
    refine .inl ⟨rfl, rfl, fun id state here => ?_⟩
    obtain ⟨n, found, -⟩ := Option.map_eq_some_iff.1 here
    have inside := (Array.getElem?_eq_some_iff.1 found).1
    rw [nodes, root?_eq_none_iff.1 none] at inside
    exact absurd inside (Nat.not_lt_zero id)
  | @inconsistent root found fails =>
    rw [run_of_inconsistent found fails]
    refine .inl ⟨rfl, rfl, fun id => ?_⟩
    by_cases own : id = root
    · subst own
      exact (Progress.left_setState _ id (Flow.proceed = .timedOut)).of_iff (by simp)
    · exact (grown.left_started nodes id).of_eq (SearchState.marks_setState _ root _ id own)
  | @searched root _ outcome found succeeds course =>
    obtain ⟨flow, st'⟩ := outcome
    rw [course.run_eq found succeeds]
    obtain rfl := eq_zero_of_root? found
    obtain ⟨-, way, places, -, left⟩ :=
      course.unwinds grown (grown.restsBelow_started nodes 0 .labeling)
    have here := st'.progress.left_setState 0 (flow = .timedOut)
    have kept (id : Nat) (apart : id ≠ 0) := (left id (Nat.pos_of_ne_zero apart)).of_eq
      (SearchState.marks_setState st' 0 (if flow = .timedOut then .timedOut else .exhausted) id
        apart)
    change SearchState.Way t 0 flow _ way at places
    generalize SearchStep.noticed steps = found at places
    cases places with
    | inTime goesOn =>
      refine .inl ⟨decide_eq_false goesOn, rfl, fun id => ?_⟩
      by_cases own : id = 0
      · subst own
        exact here.of_iff (by simpa using goesOn)
      · exact (kept id own).of_iff (by simp)
    | @late place _ up =>
      refine .inr ⟨place, rfl, rfl, fun id => ?_⟩
      rw [← List.mem_cons, up, grown.ancestors_zero]
      by_cases own : id = 0
      · subst own
        exact here.of_iff (by simp)
      · exact (kept id own).of_iff (by simp [own])

end SearchTree

end StagedSearch
