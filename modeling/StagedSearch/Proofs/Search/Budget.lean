/-
# Credit is a budget

Credit search shares units out among the candidates of a decision, and again below each of them,
until a candidate has one unit left or is deep enough. From there on everything is explored, so
what the credit bounds is how often that begins. Each time that a node is entered, complete
exploration begins at most as often as the node has units, however many decisions there are, and
whatever fails, is left out or comes too late.

The induction is on courses. What it carries is that a task opens no more roots of complete
exploration than it has units: a frame has what its path has left, and the candidates from some
index on have what is not the share of an earlier one. Units that go to a candidate that fails are
lost. That the shares add up needs the number of candidates to be the one that is reported. It is
greater for a variable that ranges over everything, but then as many units as can be reported
would have to be shared out.
-/

import StagedSearch.Proofs.Domain.Sizes
import StagedSearch.Proofs.Search.Nesting
import StagedSearch.Proofs.Search.Reexplored

namespace StagedSearch

/-! ## What is shared out -/

namespace CreditState

/-- The units that are shared out among the candidates of a decision, unless everything is explored
below it anyway. -/
def shared? (units limit : Nat) : CreditState → Option Nat
  | fresh => if limit = 0 then none else some units
  | active available depth => if limit ≤ depth then none else some available
  | exhaustive => none

/-- How often credit has been shared out. -/
def depth : CreditState → Nat
  | active _ depth => depth
  | fresh | exhaustive => 0

/-- The units that are left. -/
def worth (units limit : Nat) (state : CreditState) : Nat := (state.shared? units limit).getD 0

def share (units limit : Nat) (state : CreditState) (size index : Nat) : Nat :=
  match state.shared? units limit with
  | none => 0
  | some available => Decorator.creditShare available index (max 1 size)

/-- The units that are not the share of a candidate before some index. -/
def left (units limit : Nat) (state : CreditState) (size index : Nat) : Nat :=
  match state.shared? units limit with
  | none => 0
  | some available =>
    available -
      (index * (available / max 1 size) + min index (available % max 1 size))

/-- Credit has been shared out as often as there have been decisions. -/
def FitsDepth (depth : Nat) : CreditState → Prop
  | fresh => depth = 0
  | active _ shared => shared = depth
  | exhaustive => True

/-- Up to a number of candidates, their shares are disjoint parts of what is shared out. -/
def Covers (units limit : Nat) (state : CreditState) (size candidates : Nat) : Prop :=
  ∀ available, state.shared? units limit = some available →
    candidates ≤ size ∨ available < size

variable {units limit size index depth : Nat} {state below : CreditState}

/-- Where credit is shared out, it is known how often it has been. -/
theorem FitsDepth.depth_eq (fits : state.FitsDepth depth) {available : Nat}
    (shared : state.shared? units limit = some available) : state.depth = depth := by
  cases state with
  | fresh => exact fits.symm
  | active => exact fits
  | exhaustive => cases shared

theorem Covers.mono {few many : Nat} (covers : state.Covers units limit size many)
    (fewer : few ≤ many) : state.Covers units limit size few :=
  fun available shared => (covers available shared).imp_left fewer.trans

/-- All candidates have shares if they are as many as are reported, or if more are reported than
there are units. -/
theorem covers_of_worth (state : CreditState) {candidates : Nat}
    (few : state.worth units limit < Unsigned64.greatest)
    (reported : candidates ≤ size ∨ Unsigned64.greatest ≤ size) :
    state.Covers units limit size candidates := by
  intro available shared
  have worth : state.worth units limit = available := by
    unfold CreditState.worth
    rw [shared]
    rfl
  exact reported.imp_right fun most => by omega

theorem left_zero (units limit : Nat) (state : CreditState) (size : Nat) :
    state.left units limit size 0 = state.worth units limit := by
  unfold left worth
  cases state.shared? units limit <;> simp

/-- A candidate takes its share of what is left, and leaves the rest to the later ones. -/
theorem share_add_left_le (covers : state.Covers units limit size (index + 1)) :
    state.share units limit size index + state.left units limit size (index + 1) ≤
      state.left units limit size index := by
  unfold share left
  cases shared : state.shared? units limit with
  | none => exact Nat.le_refl 0
  | some available =>
    simp only
    unfold Decorator.creditShare
    generalize count_eq : max 1 size = count
    have whole := Nat.div_add_mod available count
    have next : (index + 1) * (available / count) =
        index * (available / count) + available / count := Nat.succ_mul _ _
    have parts : (index + 1) * (available / count) + min (index + 1) (available % count) ≤
        available := by
      rcases covers available shared with inside | few
      · have most : (index + 1) * (available / count) ≤ count * (available / count) :=
          Nat.mul_le_mul_right _ (by omega)
        omega
      · have none : available / count = 0 := Nat.div_eq_of_lt (by omega)
        have all : available % count = available := Nat.mod_eq_of_lt (by omega)
        rw [none, all]
        omega
    split <;> omega

end CreditState

namespace Decorator

variable {units limit size index depth : Nat} {state below : CreditState} {path path' : PathState}

/-- Below a candidate, its share is left, or everything is explored. -/
theorem creditBelow?_eq (units limit : Nat) (state : CreditState) (index size : Nat) :
    creditBelow? units limit state index size =
      match state.shared? units limit with
      | none => some .exhaustive
      | some _ => spend (state.share units limit size index) state.depth := by
  cases state with
  | exhaustive => rfl
  | fresh =>
    by_cases none : limit = 0 <;>
      simp [creditBelow?, CreditState.share, CreditState.shared?, CreditState.depth, none]
  | active available depth =>
    by_cases deep : limit ≤ depth <;>
      simp [creditBelow?, CreditState.share, CreditState.shared?, CreditState.depth, deep]

/-- One unit explores everything below, and more units are shared out again. -/
theorem of_spend {share : Nat} (spent : spend share depth = some below) :
    share = 1 ∧ below = .exhaustive ∨ 2 ≤ share ∧ below = .active share (depth + 1) := by
  match share with
  | 0 => cases spent
  | 1 => exact .inl ⟨rfl, (Option.some.inj spent).symm⟩
  | share + 2 => exact .inr ⟨Nat.le_add_left _ _, (Option.some.inj spent).symm⟩

/-- A candidate with a credit decorator is tried unless its share is nothing. -/
theorem step?_credit (units limit : Nat) (path : PathState) (index size : Nat) :
    (credit units limit).step? path index size =
      (creditBelow? units limit path.credit index size).map fun credit => { path with credit } :=
  rfl

theorem creditBelow?_of_step? (step : (credit units limit).step? path index size = some path') :
    creditBelow? units limit path.credit index size = some path'.credit := by
  rw [step?_credit, Option.map_eq_some_iff] at step
  obtain ⟨below, known, rfl⟩ := step
  exact known

end Decorator

/-! ## Roots of complete exploration -/

/-- A frame that is entered below a decision: the candidate that was decided, and the path. -/
structure EnteredFrame where
  trial : Trial
  path : PathState
deriving DecidableEq, Inhabited

namespace EnteredFrame

/-- How many decisions have been taken at its node. -/
def depth (frame : EnteredFrame) : Nat := frame.trial.depth + 1

/-- Complete exploration begins at the frame: it is explored completely because its share of what
was shared out above it is one unit, or it is as deep as credit goes and has some left. -/
def isRoot (units limit : Nat) (frame : EnteredFrame) : Bool :=
  match frame.path.credit with
  | .fresh => false
  | .active _ _ => frame.depth = limit
  | .exhaustive => (frame.trial.path.credit.shared? units limit).any fun available =>
    Decorator.creditShare available frame.trial.index (max 1 frame.trial.size) = 1

variable {units limit : Nat}

/-- Where everything is explored anyway, complete exploration does not begin. -/
theorem not_isRoot_of_shared {frame : EnteredFrame} (complete : frame.path.credit = .exhaustive)
    (none : frame.trial.path.credit.shared? units limit = none) :
    frame.isRoot units limit = false := by
  unfold isRoot
  rw [complete]
  simp only [none, Option.any_none]

/-- Where credit is left, complete exploration begins at the depth up to which credit goes. -/
theorem isRoot_iff_of_active {frame : EnteredFrame} {available shared : Nat}
    (kept : frame.path.credit = .active available shared) :
    frame.isRoot units limit = true ↔ frame.depth = limit := by
  unfold isRoot
  rw [kept]
  exact decide_eq_true_iff

/-- The share of a candidate pays for the frame below it, as a root or with what it has left. -/
theorem root_add_worth_le (frame : EnteredFrame)
    (fits : frame.trial.path.credit.FitsDepth frame.trial.depth)
    (step : Decorator.creditBelow? units limit frame.trial.path.credit frame.trial.index
      frame.trial.size = some frame.path.credit) :
    (if frame.isRoot units limit then 1 else 0) + frame.path.credit.worth units limit ≤
        frame.trial.path.credit.share units limit frame.trial.size frame.trial.index ∧
      frame.path.credit.FitsDepth frame.depth := by
  rw [Decorator.creditBelow?_eq] at step
  cases shared : frame.trial.path.credit.shared? units limit with
  | none =>
    rw [shared] at step
    have complete : frame.path.credit = .exhaustive := (Option.some.inj step).symm
    rw [not_isRoot_of_shared complete shared, complete]
    exact ⟨Nat.zero_le _, trivial⟩
  | some available =>
    rw [shared] at step
    rw [fits.depth_eq shared] at step
    rcases Decorator.of_spend step with ⟨one, complete⟩ | ⟨more, kept⟩
    · have nothing : CreditState.worth units limit .exhaustive = 0 := rfl
      rw [one, complete, nothing]
      refine ⟨?_, trivial⟩
      split <;> omega
    · have root : frame.isRoot units limit = true ↔ frame.depth = limit := isRoot_iff_of_active kept
      have depth : frame.depth = frame.trial.depth + 1 := rfl
      rw [kept]
      refine ⟨?_, rfl⟩
      by_cases deep : limit ≤ frame.trial.depth + 1
      · simp only [CreditState.worth, CreditState.shared?, if_pos deep, Option.getD_none]
        split <;> omega
      · rw [if_neg (by rw [root]; omega)]
        simp only [CreditState.worth, CreditState.shared?, if_neg deep, Option.getD_some]
        omega

end EnteredFrame

namespace SearchStep

variable {ρ : Type}

def node : SearchStep ρ → NodeId
  | look trial _ => trial.id
  | decide trial _ => trial.id
  | accept id _ => id

/-- The candidate that a step decides, at some node. -/
def trialAt? (id : NodeId) : SearchStep ρ → Option Trial
  | decide trial _ => if trial.id = id then some trial else none
  | _ => none

/-- The candidates that are decided at a node, in order. -/
def trialsAt (id : NodeId) (steps : List (SearchStep ρ)) : List Trial :=
  steps.filterMap (trialAt? id)

/-- The frame that a step enters: below a candidate that no decorator leaves out, if nothing fails
when it is decided. -/
def entered? (t : SearchTree) : SearchStep ρ → Option EnteredFrame
  | decide trial st =>
    match t.node? trial.id with
    | none => none
    | some node =>
      match Decorator.stepAll? node.decorators trial.path trial.index trial.size with
      | none => none
      | some path =>
        if (st.decide trial.id node.bound trial.choice).1 then some ⟨trial, path⟩ else none
  | _ => none

/-- How many roots of complete exploration there are at a node. -/
def roots (t : SearchTree) (id : NodeId) (units limit : Nat) (steps : List (SearchStep ρ)) : Nat :=
  (steps.filterMap (entered? t)).countP fun frame =>
    frame.trial.id = id && frame.isRoot units limit

variable {t : SearchTree} {id : NodeId} {units limit : Nat} {trial : Trial} {st : SearchState ρ}
  {first second steps : List (SearchStep ρ)}

@[simp]
theorem roots_look : roots t id units limit (look trial st :: steps) =
    roots t id units limit steps := rfl

@[simp]
theorem roots_append : roots t id units limit (first ++ second) =
    roots t id units limit first + roots t id units limit second := by
  unfold roots
  rw [List.filterMap_append, List.countP_append]

section Deciding

variable {node : SearchNode} {path : PathState} (trial : Trial)
  (here : t.node? trial.id = some node)
  (admitted : Decorator.stepAll? node.decorators trial.path trial.index trial.size = some path)

include here admitted

/-- Below a candidate that fails no frame is entered. -/
theorem roots_decide_of_fails (fails : (st.decide trial.id node.bound trial.choice).1 = false) :
    roots t id units limit (decide trial st :: steps) = roots t id units limit steps := by
  have none : entered? t (decide trial st) = none := by
    simp only [entered?, here, admitted, fails, Bool.false_eq_true, if_false]
  unfold roots
  rw [List.filterMap_cons_none none]

/-- Below a candidate that does not fail a frame of its node is entered. -/
theorem roots_decide_of_enters (own : trial.id = id)
    (enters : (st.decide trial.id node.bound trial.choice).1 = true) :
    roots t id units limit (decide trial st :: steps) =
      (if EnteredFrame.isRoot units limit ⟨trial, path⟩ then 1 else 0) +
        roots t id units limit steps := by
  have some : entered? t (decide trial st) = some ⟨trial, path⟩ := by
    simp only [entered?, here, admitted, enters, if_true]
  unfold roots
  rw [List.filterMap_cons_some some, List.countP_cons, Nat.add_comm]
  simp only [own, decide_true, Bool.true_and]

end Deciding

@[simp]
theorem trialsAt_look : trialsAt id (look trial st :: steps) = trialsAt id steps := rfl

theorem trialsAt_decide {depth index size : Nat} {path : PathState} {choice : Choice} :
    trialsAt id (decide ⟨id, depth, path, index, size, choice⟩ st :: steps) =
      ⟨id, depth, path, index, size, choice⟩ :: trialsAt id steps := by
  unfold trialsAt
  exact List.filterMap_cons_some (if_pos rfl)

@[simp]
theorem trialsAt_append :
    trialsAt id (first ++ second) = trialsAt id first ++ trialsAt id second :=
  List.filterMap_append

/-- Only decisions of the node are among them. -/
theorem mem_trialsAt_iff : trial ∈ trialsAt id steps ↔
    trial.id = id ∧ ∃ st, decide trial st ∈ steps := by
  unfold trialsAt
  rw [List.mem_filterMap]
  constructor
  · rintro ⟨step, member, known⟩
    cases step with
    | look | accept => cases known
    | decide other st =>
      obtain ⟨own, same⟩ := Option.ite_none_right_eq_some.1 known
      obtain rfl := Option.some.inj same
      exact ⟨own, st, member⟩
  · rintro ⟨own, st, member⟩
    exact ⟨_, member, if_pos own⟩

/-- Where nothing is done at a node, nothing is decided there. -/
theorem trialsAt_eq_nil (elsewhere : ∀ step ∈ steps, step.node ≠ id) : trialsAt id steps = [] := by
  apply List.eq_nil_iff_forall_not_mem.2
  intro trial member
  obtain ⟨own, st, decides⟩ := mem_trialsAt_iff.1 member
  exact elsewhere _ decides own

/-- A frame is entered by the decision of its candidate. -/
theorem eq_decide_of_entered {step : SearchStep ρ} {frame : EnteredFrame}
    (entered : step.entered? t = some frame) : ∃ st, step = decide frame.trial st := by
  cases step with
  | look | accept => cases entered
  | decide trial st =>
    simp only [entered?] at entered
    split at entered
    · cases entered
    · split at entered
      · cases entered
      · obtain ⟨-, same⟩ := Option.ite_none_right_eq_some.1 entered
        cases same
        exact ⟨st, rfl⟩

/-- No more frames are entered than candidates are decided. -/
theorem roots_le_length_trialsAt :
    roots t id units limit steps ≤ (trialsAt id steps).length := by
  unfold roots trialsAt
  rw [List.countP_filterMap, List.length_filterMap_eq_countP]
  apply List.countP_mono_left
  intro step member root
  cases entered : step.entered? t with
  | none => simp [entered] at root
  | some frame =>
    obtain ⟨st, rfl⟩ := eq_decide_of_entered entered
    have own : frame.trial.id = id := by
      rw [entered] at root
      exact of_decide_eq_true (Bool.and_eq_true_iff.1 root).1
    simp [trialAt?, own]

end SearchStep

namespace ValueOrder

/-- There are no more candidates than are reported, unless as many are reported as can be. -/
theorem length_candidates_le (order : ValueOrder) (s : Store) (var : VarId) :
    (order.candidates s var).1.candidates.toList.length ≤ (order.candidates s var).1.size ∨
      Unsigned64.greatest ≤ (order.candidates s var).1.size := by
  cases here : s.domains.get? var with
  | none =>
    have none : order.candidates s var = (Branching.none, order) := by
      cases order <;> simp only [candidates, here]
    rw [none]
    exact .inl (Nat.le_refl 0)
  | some d =>
    cases d with
    | int d =>
      cases order with
      | ascending =>
        rw [toList_ascending here, List.length_map, IntDomain.length_values]
        simp only [candidates, here]
        exact d.count_le_size
      | descending =>
        rw [toList_descending here, List.length_map, List.length_reverse,
          IntDomain.length_values]
        simp only [candidates, here]
        exact d.count_le_size
      | middleOut =>
        simp only [candidates, here]
        split <;> exact .inl (Nat.le_refl _)
      | random | smallestElement | largestElement =>
        simp only [candidates, here]
        exact .inl (Nat.le_refl _)
    | set d =>
      have listed (e : Option Int) :
          (elementChoices var e).candidates.toList.length ≤ (elementChoices var e).size := by
        cases e <;> exact Nat.le_refl _
      cases order with
      | smallestElement | largestElement =>
        simp only [candidates, here]
        exact .inl (listed _)
      | ascending | descending | middleOut | random =>
        simp only [candidates, here]
        exact .inl (Nat.le_refl _)

end ValueOrder

/-- What a node lists at a decision is no more than it reports, unless it reports as much as can
be. -/
theorem SearchState.length_le_of_listed {ρ : Type} {st st' : SearchState ρ} {id : NodeId}
    {var : VarId} {f : Counters → Counters} {branching : Branching}
    (listed : (st.count id f).branch id var = (branching, st')) :
    branching.candidates.toList.length ≤ branching.size ∨ Unsigned64.greatest ≤ branching.size := by
  unfold SearchState.branch at listed
  split at listed
  · obtain ⟨rfl, -⟩ := Prod.mk.inj listed
    exact .inl (Nat.le_refl 0)
  · obtain ⟨rfl, -⟩ := Prod.mk.inj listed
    exact ValueOrder.length_candidates_le _ _ _

/-! ## Courses -/

/-- How many roots of complete exploration a task may open. -/
def SearchTask.worth (units limit : Nat) : SearchTask → Nat
  | label _ _ path => path.credit.worth units limit
  | trials _ _ path size index _ => path.credit.left units limit size index

/-- A task at a node with a credit: credit has been shared out as often as there have been
decisions, and the candidates that are left have shares. -/
def SearchTask.Shares (units limit : Nat) : SearchTask → Prop
  | label _ depth path => path.credit.FitsDepth depth
  | trials _ depth path size index candidates =>
    path.credit.FitsDepth depth ∧
      path.credit.Covers units limit size (index + candidates.toList.length)

/-- A step may belong to a task: it is taken at a later node, or at the node of the task, where as
many decisions have been taken before. -/
def SearchStep.Onward {ρ : Type} (task : SearchTask) (step : SearchStep ρ) : Prop :=
  task.node < step.node ∨
    step.node = task.node ∧ ∀ trial st, step = .decide trial st → task.depth ≤ trial.depth

namespace SearchTree

variable {ρ : Type} {t : SearchTree} {frames : Nat} {task : SearchTask}
  {st : SearchState ρ} {steps : List (SearchStep ρ)} {outcome : Flow × SearchState ρ}

theorem onward_look (trial : Trial) (st : SearchState ρ) (own : trial.id = task.node) :
    SearchStep.Onward task (.look trial st) := by
  refine .inr ⟨own, fun _ _ same => ?_⟩
  cases same

theorem onward_accept (id : NodeId) (st : SearchState ρ) (own : id = task.node) :
    SearchStep.Onward task (.accept id st) := by
  refine .inr ⟨own, fun _ _ same => ?_⟩
  cases same

theorem onward_decide (trial : Trial) (st : SearchState ρ) (own : trial.id = task.node)
    (depth : task.depth ≤ trial.depth) : SearchStep.Onward task (.decide trial st) := by
  refine .inr ⟨own, ?_⟩
  intro trial' st' same
  cases same
  exact depth

/-- What belongs to the frame below a decision belongs to its trials. -/
theorem onward_of_below {id : NodeId} {depth size index : Nat} {path path' : PathState}
    {candidates : Candidates} {step : SearchStep ρ}
    (below : step.Onward (.label id (depth + 1) path')) :
    step.Onward (.trials id depth path size index candidates) :=
  below.imp_right fun own =>
    ⟨own.1, fun trial st same => Nat.le_of_succ_le (own.2 trial st same)⟩

variable [Reporter ρ]

/-- All steps of a task belong to it. -/
theorem Course.onward (grown : t.Grown) (course : t.Course frames task st steps outcome) :
    ∀ step ∈ steps, step.Onward task := by
  induction course with
  | spent | missing | emptied => simp
  | solved =>
    intro step member
    obtain rfl := List.mem_singleton.1 member
    exact onward_accept _ _ rfl
  | descended here _ next _ ih =>
    intro step member
    have older := (grown.lt_of_head?_children here next).1
    rcases ih step member with later | ⟨same, -⟩
    · exact .inl (older.trans later)
    · exact .inl (Nat.lt_of_lt_of_eq older same.symm)
  | branched _ _ _ _ ih => exact ih
  | late | pruned =>
    intro step member
    obtain rfl := List.mem_singleton.1 member
    exact onward_look _ _ rfl
  | failed _ _ _ _ _ _ ih =>
    exact List.forall_mem_cons.2 ⟨onward_look _ _ rfl,
      List.forall_mem_cons.2 ⟨onward_decide _ _ rfl (Nat.le_refl _), ih⟩⟩
  | returned _ _ _ _ _ _ _ ihBelow ihLater =>
    refine List.forall_mem_cons.2 ⟨onward_look _ _ rfl,
      List.forall_mem_cons.2 ⟨onward_decide _ _ rfl (Nat.le_refl _), fun step member => ?_⟩⟩
    rcases List.mem_append.1 member with early | later
    · exact onward_of_below (ihBelow step early)
    · exact ihLater step later
  | ended _ _ _ _ _ _ _ ih =>
    exact List.forall_mem_cons.2 ⟨onward_look _ _ rfl,
      List.forall_mem_cons.2 ⟨onward_decide _ _ rfl (Nat.le_refl _), fun step member =>
        onward_of_below (ih step member)⟩⟩

/-- Once a node has handed on to its child, nothing is decided at it. -/
theorem Course.trialsAt_below (grown : t.Grown) {id child : NodeId} {node : SearchNode}
    {path : PathState} {depth : Nat} (here : t.node? id = some node)
    (next : node.children.head? = some child)
    (below : t.Course frames (.label child depth path) st steps outcome) :
    SearchStep.trialsAt id steps = [] := by
  have older : id < child := (grown.lt_of_head?_children here next).1
  apply SearchStep.trialsAt_eq_nil
  rintro step member rfl
  rcases below.onward grown step member with later | ⟨same, -⟩
  · exact absurd (older.trans later) (Nat.lt_irrefl _)
  · exact Nat.ne_of_lt older same

section Credit

variable {id : NodeId} {node : SearchNode} {units limit : Nat}

/-- The next candidate takes its share: it pays for the frame below as a root, or with what is left
there, and what is left here pays for the later candidates. -/
theorem shares_next (here : t.node? id = some node)
    (credit : node.search.exploration = .credit units limit) {node' : SearchNode}
    (here' : t.node? id = some node') {depth size index : Nat} {path path' : PathState}
    {candidates rest : Candidates} {choice : Choice}
    (shares : (SearchTask.trials id depth path size index candidates).Shares units limit)
    (next : candidates.next? = some (choice, rest))
    (admitted : Decorator.stepAll? node'.decorators path index size = some path') :
    (if EnteredFrame.isRoot units limit ⟨⟨id, depth, path, index, size, choice⟩, path'⟩ then 1
        else 0) + (SearchTask.label id (depth + 1) path').worth units limit +
          (SearchTask.trials id depth path size (index + 1) rest).worth units limit ≤
        (SearchTask.trials id depth path size index candidates).worth units limit ∧
      (SearchTask.label id (depth + 1) path').Shares units limit ∧
      (SearchTask.trials id depth path size (index + 1) rest).Shares units limit := by
  obtain rfl := Option.some.inj (here.symm.trans here')
  rw [SearchNode.decorators, credit, Exploration.decorators, Decorator.stepAll?_singleton]
    at admitted
  obtain ⟨fits, covers⟩ := shares
  have length : index + candidates.toList.length = index + 1 + rest.toList.length := by
    rw [Candidates.toList_of_next?_eq_some next, List.length_cons]
    omega
  rw [length] at covers
  obtain ⟨pays, deeper⟩ := EnteredFrame.root_add_worth_le
    ⟨⟨id, depth, path, index, size, choice⟩, path'⟩ fits
    (Decorator.creditBelow?_of_step? admitted)
  have parts := CreditState.share_add_left_le (covers.mono (Nat.le_add_right (index + 1) _))
  exact ⟨(Nat.add_le_add_right pays _).trans parts, deeper, fits, covers⟩

/-- A task at a node with a credit opens no more roots of complete exploration than it has units
for, if fewer units are shared out than can be reported. -/
theorem Course.roots_le_worth (grown : t.Grown) (here : t.node? id = some node)
    (credit : node.search.exploration = .credit units limit)
    (course : t.Course frames task st steps outcome) (own : task.node = id)
    (shares : task.Shares units limit) (few : task.worth units limit < Unsigned64.greatest) :
    SearchStep.roots t id units limit steps ≤ task.worth units limit := by
  induction course with
  | spent | missing | solved | emptied | late | pruned => exact Nat.zero_le _
  | @descended _ id' child _ _ _ _ _ steps _ here' decided next below ih =>
    obtain rfl : id' = id := own
    have none := below.trialsAt_below grown here' next
    have fewer : SearchStep.roots t id' units limit steps ≤ _ :=
      SearchStep.roots_le_length_trialsAt
    rw [none] at fewer
    exact fewer.trans (Nat.zero_le _)
  | @branched _ _ _ path _ _ _ _ _ branching _ _ _ _ listed _ ih =>
    have whole : path.credit.left units limit branching.size 0 = path.credit.worth units limit :=
      CreditState.left_zero units limit path.credit branching.size
    have covers := CreditState.covers_of_worth path.credit few
      (SearchState.length_le_of_listed listed)
    rw [← Nat.zero_add branching.candidates.toList.length] at covers
    exact (ih own ⟨shares, covers⟩ (whole.trans_lt few)).trans_eq whole
  | failed here' next inTime admitted fails later ih =>
    simp only [SearchTask.node] at own
    subst own
    obtain ⟨pays, -, shares'⟩ := shares_next here credit here' shares next admitted
    rw [SearchStep.roots_look,
      SearchStep.roots_decide_of_fails ⟨_, _, _, _, _, _⟩ here' admitted (by rw [fails])]
    have after := ih rfl shares' (by omega)
    omega
  | returned here' next inTime admitted enters below later ihBelow ihLater =>
    simp only [SearchTask.node] at own
    subst own
    obtain ⟨pays, deeper, shares'⟩ := shares_next here credit here' shares next admitted
    rw [SearchStep.roots_look,
      SearchStep.roots_decide_of_enters ⟨_, _, _, _, _, _⟩ here' admitted rfl (by rw [enters]),
      SearchStep.roots_append]
    dsimp only
    have inside := ihBelow rfl deeper (by omega)
    have after := ihLater rfl shares' (by omega)
    omega
  | ended here' next inTime admitted enters below ends ih =>
    simp only [SearchTask.node] at own
    subst own
    obtain ⟨pays, deeper, -⟩ := shares_next here credit here' shares next admitted
    rw [SearchStep.roots_look,
      SearchStep.roots_decide_of_enters ⟨_, _, _, _, _, _⟩ here' admitted rfl (by rw [enters])]
    dsimp only
    have inside := ih rfl deeper (by omega)
    omega

/-- Where the next candidate is left out, nothing is decided any more. -/
theorem Course.trialsAt_of_refused (here : t.node? id = some node) {depth size index : Nat}
    {path : PathState} {candidates : Candidates}
    (refused : candidates.next? ≠ none →
      Decorator.stepAll? node.decorators path index size = none)
    (course : t.Course frames (.trials id depth path size index candidates) st steps outcome) :
    SearchStep.trialsAt id steps = [] := by
  have left_out {node' : SearchNode} (here' : t.node? id = some node') {choice : Choice}
      {rest : Candidates} {path' : PathState} (next : candidates.next? = some (choice, rest))
      (admitted : Decorator.stepAll? node'.decorators path index size = some path') : False := by
    obtain rfl := Option.some.inj (here.symm.trans here')
    rw [refused (by rw [next]; exact nofun)] at admitted
    cases admitted
  cases course with
  | emptied | late | pruned => rfl
  | failed here' next _ admitted => exact (left_out here' next admitted).elim
  | returned here' next _ admitted => exact (left_out here' next admitted).elim
  | ended here' next _ admitted => exact (left_out here' next admitted).elim

/-- Below a decision no decision of its depth is taken at its node. -/
theorem Course.filter_trialsAt_below (grown : t.Grown) {depth : Nat} {path : PathState}
    (below : t.Course frames (.label id (depth + 1) path) st steps outcome) :
    (SearchStep.trialsAt id steps).filter (fun trial => trial.depth = depth) = [] := by
  apply List.filter_eq_nil_iff.2
  intro trial member same
  obtain ⟨own, st', decides⟩ := SearchStep.mem_trialsAt_iff.1 member
  have deeper : depth + 1 ≤ trial.depth := by
    rcases below.onward grown _ decides with later | ⟨-, deeper⟩
    · exact absurd own (Nat.ne_of_gt later)
    · exact deeper trial st' rfl
  have equal : trial.depth = depth := of_decide_eq_true same
  omega

/-! ## Entries -/

/-- Some of the steps, one after the other, are those of an entry of a node: what its first frame
does. -/
def Entry (t : SearchTree) (id : NodeId) (entry steps : List (SearchStep ρ)) : Prop :=
  entry <:+: steps ∧
    ∃ frames st outcome, t.Course frames (.label id 0 .start) st entry outcome

theorem Entry.of_infix {entry first second : List (SearchStep ρ)} (among : t.Entry id entry first)
    (inside : first <:+: second) : t.Entry id entry second :=
  among.imp_left fun part => part.trans inside

/-- A step of a task is taken at the node of the task, or in an entry of a later node. -/
theorem Course.exists_entry (course : t.Course frames task st steps outcome) :
    ∀ step ∈ steps,
      step.node = task.node ∨ ∃ entry, t.Entry step.node entry steps ∧ step ∈ entry := by
  induction course with
  | spent | missing | emptied => simp
  | solved | late | pruned =>
    intro step member
    obtain rfl := List.mem_singleton.1 member
    exact .inl rfl
  | descended _ _ _ below ih =>
    intro step member
    refine .inr ?_
    rcases ih step member with own | later
    · rw [own]
      exact ⟨_, ⟨List.infix_rfl, _, _, _, below⟩, member⟩
    · exact later
  | branched _ _ _ _ ih => exact ih
  | failed _ _ _ _ _ _ ih =>
    refine List.forall_mem_cons.2 ⟨.inl rfl, List.forall_mem_cons.2 ⟨.inl rfl, ?_⟩⟩
    intro step member
    refine (ih step member).imp_right fun ⟨entry, among, inside⟩ => ⟨entry, ?_, inside⟩
    exact among.of_infix ((List.suffix_cons _ _).trans (List.suffix_cons _ _)).isInfix
  | @returned _ _ _ _ _ _ _ _ _ _ _ _ _ _ _ inner steps _ _ _ _ _ _ _ _ ihBelow ihLater =>
    refine List.forall_mem_cons.2 ⟨.inl rfl, List.forall_mem_cons.2 ⟨.inl rfl, ?_⟩⟩
    intro step member
    have after (a b : SearchStep ρ) : inner ++ steps <:+: a :: b :: (inner ++ steps) :=
      ((List.suffix_cons _ _).trans (List.suffix_cons _ _)).isInfix
    rcases List.mem_append.1 member with early | later
    · refine (ihBelow step early).imp_right fun ⟨entry, among, inside⟩ => ⟨entry, ?_, inside⟩
      exact among.of_infix ((List.prefix_append inner steps).isInfix.trans (after _ _))
    · refine (ihLater step later).imp_right fun ⟨entry, among, inside⟩ => ⟨entry, ?_, inside⟩
      exact among.of_infix ((List.suffix_append inner steps).isInfix.trans (after _ _))
  | ended _ _ _ _ _ _ _ ih =>
    refine List.forall_mem_cons.2 ⟨.inl rfl, List.forall_mem_cons.2 ⟨.inl rfl, ?_⟩⟩
    intro step member
    refine (ih step member).imp_right fun ⟨entry, among, inside⟩ => ⟨entry, ?_, inside⟩
    exact among.of_infix ((List.suffix_cons _ _).trans (List.suffix_cons _ _)).isInfix

/-- Every step of a run is taken in an entry of its node. -/
theorem Follows.exists_entry (follows : t.Follows st steps) :
    ∀ step ∈ steps, ∃ entry, t.Entry step.node entry steps ∧ step ∈ entry := by
  cases follows with
  | empty | inconsistent => simp
  | searched _ _ course =>
    intro step member
    rcases course.exists_entry step member with own | later
    · rw [own]
      exact ⟨steps, ⟨List.infix_rfl, _, _, _, course⟩, member⟩
    · exact later

/-- What the units of a node bound in the steps of an entry: how often complete exploration
begins. Without units nothing is decided, and with one of them only the first candidate of the first
decision is tried. -/
structure KeepsBudget (t : SearchTree) (id : NodeId) (units limit : Nat)
    (entry : List (SearchStep ρ)) : Prop where
  /-- With as many units as can be reported, nothing is said of an entry with more decisions than
  can be counted. -/
  roots : units < Unsigned64.greatest ∨
      (SearchStep.trialsAt id entry).length ≤ Unsigned64.greatest →
    SearchStep.roots t id units limit entry ≤ units
  none : units = 0 → SearchStep.trialsAt id entry = []
  single : units = 1 →
    (((SearchStep.trialsAt id entry).filter fun trial => trial.depth = 0).map
      Trial.index).Sublist [0]

/-- At the start of a node, a candidate whose share is nothing is left out. -/
theorem stepAll?_start_eq_none (credit : node.search.exploration = .credit units limit)
    (positive : 1 ≤ limit) {index size : Nat}
    (nothing : Decorator.creditShare units index (max 1 size) = 0) :
    Decorator.stepAll? node.decorators .start index size = none := by
  have shared : CreditState.shared? units limit .fresh = some units :=
    if_neg (Nat.ne_of_gt positive)
  rw [SearchNode.decorators, credit, Exploration.decorators, Decorator.stepAll?_singleton,
    Decorator.step?_credit, Option.map_eq_none_iff, Decorator.creditBelow?_eq]
  simp only [PathState.start, CreditState.share, shared, nothing]
  rfl

/-- The steps of the first frame of a node keep to its units. -/
theorem Course.keepsBudget (grown : t.Grown) (here : t.node? id = some node)
    (credit : node.search.exploration = .credit units limit) (positive : 1 ≤ limit)
    (course : t.Course frames (.label id 0 .start) st steps outcome) :
    t.KeepsBudget id units limit steps where
  roots bounded := by
    have worth : (SearchTask.label id 0 .start).worth units limit = units := by
      simp only [SearchTask.worth, PathState.start, CreditState.worth, CreditState.shared?]
      rw [if_neg (Nat.ne_of_gt positive), Option.getD_some]
    by_cases few : units < Unsigned64.greatest
    · have most := course.roots_le_worth grown here credit rfl rfl (worth.trans_lt few)
      exact most.trans_eq worth
    · calc SearchStep.roots t id units limit steps
          ≤ (SearchStep.trialsAt id steps).length := SearchStep.roots_le_length_trialsAt
        _ ≤ Unsigned64.greatest := bounded.resolve_left few
        _ ≤ units := Nat.le_of_not_lt few
  none nothing := by
    subst nothing
    cases course with
    | spent | missing | solved => rfl
    | descended here' _ next below => exact below.trialsAt_below grown here' next
    | branched _ _ _ trials =>
      refine trials.trialsAt_of_refused here fun _ => stepAll?_start_eq_none credit positive ?_
      simp [Decorator.creditShare]
  single one := by
    subst one
    cases course with
    | spent | missing | solved => exact List.nil_sublist _
    | descended here' _ next below =>
      rw [below.trialsAt_below grown here' next]
      exact List.nil_sublist _
    | @branched _ _ _ _ _ _ _ _ _ branching _ _ here' _ listed trials =>
      have reported := SearchState.length_le_of_listed listed
      -- A second candidate is left out, since a decision with two of them has no unit for it.
      have second {rest : Candidates} {choice : Choice}
          (next : branching.candidates.next? = some (choice, rest)) (more : rest.next? ≠ .none) :
          Decorator.stepAll? node.decorators .start 1 branching.size = .none := by
        obtain ⟨⟨other, later⟩, next'⟩ := Option.ne_none_iff_exists'.1 more
        rw [Candidates.toList_of_next?_eq_some next, Candidates.toList_of_next?_eq_some next',
          List.length_cons, List.length_cons] at reported
        have several : 2 ≤ branching.size := by
          rcases reported with fits | most
          · omega
          · exact Nat.le_trans (by decide) most
        refine stepAll?_start_eq_none credit positive ?_
        rw [Decorator.creditShare, Nat.div_eq_of_lt (by omega), Nat.mod_eq_of_lt (by omega)]
        rfl
      cases trials with
      | emptied | late | pruned => exact List.nil_sublist _
      | failed _ next _ _ _ later =>
        rw [SearchStep.trialsAt_look, SearchStep.trialsAt_decide,
          later.trialsAt_of_refused here (second next)]
        exact List.Sublist.refl _
      | returned _ next _ _ _ below later =>
        rw [SearchStep.trialsAt_look, SearchStep.trialsAt_decide, SearchStep.trialsAt_append,
          later.trialsAt_of_refused here (second next), List.append_nil,
          List.filter_cons_of_pos (by rfl), below.filter_trialsAt_below grown]
        exact List.Sublist.refl _
      | ended _ _ _ _ _ below =>
        rw [SearchStep.trialsAt_look, SearchStep.trialsAt_decide,
          List.filter_cons_of_pos (by rfl), below.filter_trialsAt_below grown]
        exact List.Sublist.refl _

end Credit

end SearchTree

namespace SearchSpec

variable {ρ : Type} [Reporter ρ] {spec : SearchSpec} {names : Names} {s : Store}
  {context : Context ρ} {t : SearchTree}

/-- In every run over a tree that was built, from whatever store, context and accounts it begins,
the entries of a node with a credit keep to its units, and every step at the node is taken in one
of them. -/
theorem keepsBudget_of_build (built : (spec.build names s context).outcome = .ok (.tree t))
    (st : SearchState ρ) :
    ∃ steps : List (SearchStep ρ), t.Follows st steps ∧ ∀ id node units limit,
      t.node? id = some node → node.search.exploration = .credit units limit → 1 ≤ limit →
        (∀ step ∈ steps, step.node = id → ∃ entry, t.Entry id entry steps ∧ step ∈ entry) ∧
        ∀ entry, t.Entry id entry steps → t.KeepsBudget id units limit entry := by
  have grown := grown_of_build built
  obtain ⟨steps, follows⟩ := t.exists_follows st
  refine ⟨steps, follows, fun id node units limit here credit positive => ⟨?_, ?_⟩⟩
  · rintro step member rfl
    exact follows.exists_entry step member
  · rintro entry ⟨-, frames, st', outcome, course⟩
    exact course.keepsBudget grown here credit positive

/-- Two nodes with a credit each: below the first candidate of the first decision everything is
explored, and the second node splits its own units whenever it is entered. -/
theorem keepsBudget_of_build_chained :
    ∃ (spec : SearchSpec) (s : Store) (t : SearchTree) (st : SearchState NoReporter)
      (steps : List (SearchStep NoReporter)),
      (spec.build Names.empty s
        (Context.ofListener (Listener.all none) : Context NoReporter)).outcome = .ok (.tree t) ∧
      t.Follows st steps ∧ (t.run st).2.context.listener.count = 4 ∧
      (∀ entry, t.Entry 0 entry steps → t.KeepsBudget 0 1 5 entry) ∧
      ∀ entry, t.Entry 1 entry steps → SearchStep.roots t 1 2 5 entry ≤ 2 := by
  let s := StoreOperation.applyAll Store.empty
    [.declareInt "x" 1 2, .declareInt "y" 1 2, .declareInt "z" 1 3]
  let spec : SearchSpec := ⟨.satisfy, none,
    some (.seq [.leaf .int ⟨[⟨0⟩, ⟨1⟩], some .inputOrder, some .min, .credit 1 5⟩,
      .leaf .int ⟨[⟨2⟩], some .inputOrder, some .min, .credit 2 5⟩])⟩
  let context : Context NoReporter := Context.ofListener (Listener.all none)
  let t := SearchTree.ofStages none
    [⟨⟨.int, [⟨0⟩, ⟨1⟩], .inputOrder, .min, .credit 1 5, .ascending⟩, .explicit⟩,
      ⟨⟨.int, [⟨2⟩], .inputOrder, .min, .credit 2 5, .ascending⟩, .explicit⟩]
  have built : (spec.build Names.empty s context).outcome = .ok (.tree t) := rfl
  let st : SearchState NoReporter := ⟨Progress.ofTree t, s, context⟩
  obtain ⟨steps, follows, keeps⟩ := keepsBudget_of_build built st
  exact ⟨spec, s, t, st, steps, built, follows, by decide +kernel,
    (keeps 0 _ 1 5 rfl rfl (by decide)).2, fun entry among =>
      ((keeps 1 _ 2 5 rfl rfl (by decide)).2 entry among).roots (.inl (by decide))⟩

end SearchSpec

end StagedSearch
