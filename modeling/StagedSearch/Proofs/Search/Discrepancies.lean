/-
# Limited discrepancy search

A discrepancy is a candidate that is chosen although it is not the first one of its decision. A
node with a limit of discrepancies allows so many of them on each way through its stage, and
counts afresh whenever it is entered. So a search for all solutions finds those that the same
search finds without limits on a way that keeps to the limit of every node, in the same order.

The induction is on the frames, with the discrepancies made so far. Leaving a candidate out ends
the trials of its decision. Nothing is lost by that, since every later candidate is a discrepancy
as well; it does not matter which of the candidates before it fail.
-/

import StagedSearch.Proofs.Search.Deadline
import StagedSearch.Proofs.Search.Reexplored

namespace StagedSearch

/-! ## Discrepancies -/

/-- How many picks are not the first candidate of their decision. -/
def discrepancies (picks : List Pick) : Nat := picks.countP fun pick => 0 < pick.index

theorem discrepancies_cons (pick : Pick) (picks : List Pick) :
    discrepancies (pick :: picks) = (if 0 < pick.index then 1 else 0) + discrepancies picks := by
  unfold discrepancies
  rw [List.countP_cons, Nat.add_comm]
  simp only [decide_eq_true_eq]

def Exploration.allows (used : Nat) : Exploration → List Pick → Bool
  | .lds limit, picks => used + discrepancies picks ≤ limit
  | _, _ => true

namespace SearchTree

def allows (t : SearchTree) (used : Nat) (id : NodeId) (picks : List Pick) : Bool :=
  (t.node? id).all fun node => node.search.exploration.allows used picks

/-- Whether a way from a node keeps to the limits of discrepancies of all its stages, when a
number of them has been made in the first one. -/
def keeps (t : SearchTree) (used : Nat) (id : NodeId) (w : Way) : Bool :=
  t.allows used id w.here && w.later.all fun stage => t.allows 0 stage.1 stage.2

/-- Whether a way of a run has at most as many discrepancies in each stage as its node allows. -/
def keepsLimits (t : SearchTree) (w : Way) : Bool :=
  t.root?.all fun root => (w.stages root).all fun stage => t.allows 0 stage.1 stage.2

/-- Every node is explored completely or up to a limit of discrepancies. -/
def LimitsDiscrepancies (t : SearchTree) : Prop :=
  ∀ node ∈ t.nodes, node.search.exploration = .complete ∨
    ∃ limit, node.search.exploration = .lds limit

variable {t : SearchTree} {id : NodeId} {node : SearchNode} {limit used : Nat}

theorem keepsLimits_of_root {root : NodeId} (found : t.root? = some root) (w : Way) :
    t.keepsLimits w = t.keeps 0 root w := by
  unfold keepsLimits
  rw [found]
  rfl

theorem allows_of_complete (here : t.node? id = some node)
    (complete : node.search.exploration = .complete) (used : Nat) (picks : List Pick) :
    t.allows used id picks = true := by
  unfold allows
  rw [here, Option.all_some, complete]
  rfl

theorem allows_of_lds (here : t.node? id = some node)
    (lds : node.search.exploration = .lds limit) (used : Nat) (picks : List Pick) :
    t.allows used id picks = decide (used + discrepancies picks ≤ limit) := by
  unfold allows
  rw [here, Option.all_some, lds]
  rfl

/-- Nothing is broken where nothing has been picked. -/
theorem allows_nil (t : SearchTree) (id : NodeId) : t.allows 0 id [] = true := by
  unfold allows
  cases t.node? id with
  | none => rfl
  | some node => cases explored : node.search.exploration <;> simp [explored, Exploration.allows,
      discrepancies]

theorem allows_cons (t : SearchTree) (used : Nat) (id : NodeId) (pick : Pick)
    (picks : List Pick) : t.allows used id (pick :: picks) =
      t.allows (used + if 0 < pick.index then 1 else 0) id picks := by
  unfold allows
  congr 1
  funext node
  cases node.search.exploration with
  | lds limit =>
    show decide (_ ≤ limit) = decide (_ ≤ limit)
    rw [discrepancies_cons, Nat.add_assoc]
  | _ => rfl

theorem keeps_after (t : SearchTree) (used : Nat) (id : NodeId) (pick : Pick) (w : Way) :
    t.keeps used id (w.after pick) =
      t.keeps (used + if 0 < pick.index then 1 else 0) id w := by
  unfold keeps Way.after
  rw [allows_cons]

/-- What has been picked at a node that is explored completely does not matter. -/
theorem keeps_of_complete (here : t.node? id = some node)
    (complete : node.search.exploration = .complete) (used used' : Nat) (w : Way) :
    t.keeps used id w = t.keeps used' id w := by
  unfold keeps
  rw [allows_of_complete here complete, allows_of_complete here complete]

/-- Going on at a child, a way keeps to the limits if it has not broken the one of its node. -/
theorem keeps_into (allowed : t.allows used id [] = true) (child : NodeId) (w : Way) :
    t.keeps used id (w.into child) = t.keeps 0 child w := by
  unfold keeps Way.into
  rw [allowed, Bool.true_and, List.all_cons]

end SearchTree

namespace Decorator

variable {limit index size : Nat} {path path' : PathState}

/-- A path counts the discrepancy of a candidate that is not left out. -/
theorem discrepancies_of_step? (admitted : (lds limit).step? path index size = some path') :
    path'.discrepancies = path.discrepancies + (if 0 < index then 1 else 0) ∧
      (0 < index → path'.discrepancies ≤ limit) := by
  obtain ⟨allowed, same⟩ := Option.ite_none_right_eq_some.1 admitted
  obtain rfl := Option.some.inj same
  exact ⟨rfl, fun later => allowed.resolve_left later.ne'⟩

/-- A candidate that is left out is not the first one, and the limit has been reached. -/
theorem limit_of_step? (refused : (lds limit).step? path index size = none) :
    0 < index ∧ limit < path.discrepancies + 1 := by
  have broken : ¬ (index = 0 ∨ path.discrepancies + (if 0 < index then 1 else 0) ≤ limit) :=
    fun allowed => nomatch ite_eq_right_iff.1 refused allowed
  obtain ⟨later, more⟩ := not_or.1 broken
  have positive : 0 < index := Nat.pos_of_ne_zero later
  rw [if_pos positive] at more
  exact ⟨positive, Nat.lt_of_not_le more⟩

end Decorator

namespace SearchTree

/-! ## Choosing, with and without limits -/

section Choosing

variable {α : Type} {after : Pick → α → α} {below below' : PathState → Store → List α}
  {decorators : List Decorator} {path path' : PathState} {s : Store} {size : Nat}

/-- Decorators that leave out what is not to be kept, and nothing else, are a filter. -/
theorem choose_eq_filter (keep : α → Bool)
    (admits : ∀ index next, Decorator.stepAll? decorators path index size = some next → ∀ u,
      below next u = (below' path' u).filter fun a => keep (after ⟨index, size⟩ a))
    (refuses : ∀ index, Decorator.stepAll? decorators path index size = none →
      ∀ later, index ≤ later → ∀ a, keep (after ⟨later, size⟩ a) = false)
    (index : Nat) (choices : List Choice) :
    choose after below decorators path s size index choices =
      (choose after below' [] path' s size index choices).filter keep := by
  induction choices generalizing index with
  | nil => rfl
  | cons choice rest ih =>
    have plain : Decorator.stepAll? [] path' index size = some path' := rfl
    cases step : Decorator.stepAll? decorators path index size with
    | none =>
      rw [choose_of_refused step]
      refine (List.filter_eq_nil_iff.2 fun a found => ?_).symm
      obtain ⟨other, u, b, -, later, rfl⟩ := exists_of_mem_choose found
      rw [refuses index step other later b]
      exact Bool.false_ne_true
    | some next =>
      rw [choose_of_admitted step, choose_of_admitted plain, List.filter_append, ih]
      congr 1
      split
      · rw [admits index next step, List.filter_map]
        rfl
      · rfl

end Choosing

/-! ## Ways that keep to the limits -/

section Ways

variable {t : SearchTree} {id : NodeId} {node : SearchNode} {frames limit : Nat}
  {path path' : PathState} {s : Store}

/-- At a node with a limit, the candidates that are left out are those that break it. -/
theorem choose_of_lds (here : t.node? id = some node) (lds : node.search.exploration = .lds limit)
    (allowed : t.allows path.discrepancies id [] = true)
    (deeper : ∀ next, t.allows next.discrepancies id [] = true → ∀ u, t.ways frames id next u =
      (t.plain.ways frames id path' u).filter (t.keeps next.discrepancies id))
    (size index : Nat) (choices : List Choice) :
    choose Way.after (t.ways frames id) [.lds limit] path s size index choices =
      (choose Way.after (t.plain.ways frames id) [] path' s size index choices).filter
        (t.keeps path.discrepancies id) := by
  rw [allows_of_lds here lds, decide_eq_true_iff] at allowed
  refine choose_eq_filter _ (fun index next admitted u => ?_)
    (fun index refused later from_index w => ?_) index choices
  · rw [Decorator.stepAll?_singleton] at admitted
    obtain ⟨counted, most⟩ := Decorator.discrepancies_of_step? admitted
    have still : t.allows next.discrepancies id [] = true := by
      rw [allows_of_lds here lds, decide_eq_true_iff]
      by_cases other : 0 < index
      · exact most other
      · rw [counted, if_neg other]
        exact allowed
    rw [deeper next still]
    simp only [keeps_after, counted]
  · rw [Decorator.stepAll?_singleton] at refused
    obtain ⟨other, reached⟩ := Decorator.limit_of_step? refused
    have broken : ¬ path.discrepancies + 1 + discrepancies w.here ≤ limit := by omega
    rw [keeps_after, if_pos (other.trans_le from_index), keeps, allows_of_lds here lds,
      decide_eq_false broken, Bool.false_and]

/-- At a node that is explored completely, only the limits of later stages leave something out. -/
theorem choose_of_complete (here : t.node? id = some node)
    (complete : node.search.exploration = .complete)
    (deeper : ∀ u, t.ways frames id path u =
      (t.plain.ways frames id path' u).filter (t.keeps path.discrepancies id))
    (size index : Nat) (choices : List Choice) :
    choose Way.after (t.ways frames id) [] path s size index choices =
      (choose Way.after (t.plain.ways frames id) [] path' s size index choices).filter
        (t.keeps path.discrepancies id) := by
  refine choose_eq_filter _ (fun index next admitted u => ?_) (fun _ refused => ?_) index choices
  · obtain rfl := Option.some.inj admitted
    rw [deeper]
    simp only [keeps_after]
    exact congrArg (List.filter · _) (funext fun w => keeps_of_complete here complete _ _ w)
  · cases refused

/-- The ways with limits of discrepancies are those without limits that keep to them. -/
theorem ways_eq_filter (limits : t.LimitsDiscrepancies) (frames : Nat) (id : NodeId)
    (path path' : PathState) (s : Store) (allowed : t.allows path.discrepancies id [] = true) :
    t.ways frames id path s =
      (t.plain.ways frames id path' s).filter (t.keeps path.discrepancies id) := by
  induction frames generalizing id path path' s with
  | zero => rfl
  | succ frames ih =>
    cases here : t.node? id with
    | none =>
      rw [ways_of_missing here, plain_ways_of_missing here]
      rfl
    | some node =>
      cases picked : node.search.variableOrder.select? s node.vars with
      | none =>
        rw [ways_of_decided here picked, plain_ways_of_decided here picked]
        unfold waysOnward
        rw [children_plain]
        cases (t.children id).head? with
        | none => simp [keeps, allowed]
        | some child =>
          simp only [ih child .start .start s (t.allows_nil child), List.filter_map,
            Function.comp_def, keeps_into allowed]
          rfl
      | some var =>
        rw [ways_of_picked here picked, plain_ways_of_picked here picked, SearchNode.decorators]
        rcases limits node (Array.mem_of_getElem? here) with complete | ⟨limit, lds⟩
        · rw [complete]
          exact choose_of_complete here complete (fun u => ih id path path' u allowed) _ 0 _
        · rw [lds]
          exact choose_of_lds here lds allowed (fun next still u => ih id next path' u still) _ 0 _

/-- The ways of a run with limits of discrepancies. -/
theorem waysFrom_eq_filter (limits : t.LimitsDiscrepancies) (s : Store) :
    t.waysFrom s = (t.plain.waysFrom s).filter t.keepsLimits := by
  rcases t.waysFrom_cases s with ⟨none, none'⟩ | ⟨root, found, ways, ways'⟩
  · rw [none, none']
    rfl
  · rw [ways, ways', ways_eq_filter limits _ root .start .start _ (t.allows_nil root)]
    exact congrArg (List.filter · _) (funext fun w => (keepsLimits_of_root found w).symm)

/-! ## Higher limits -/

theorem allows_reexplore (f : NodeId → Exploration → Exploration) (t : SearchTree) (used : Nat)
    (id : NodeId) (picks : List Pick) : (t.reexplore f).allows used id picks =
      (t.node? id).all fun node => (f id node.search.exploration).allows used picks := by
  unfold allows
  rw [node?_reexplore, Option.all_map]

/-- With a higher limit at one node, whatever was allowed is allowed. -/
theorem allows_explore (here : t.node? id = some node)
    (lds : node.search.exploration = .lds limit) {more : Nat} (higher : limit ≤ more)
    {used other : Nat} {picks : List Pick} (allowed : t.allows used other picks = true) :
    (t.explore id (.lds more)).allows used other picks = true := by
  unfold explore
  rw [allows_reexplore]
  by_cases same : other = id
  · subst same
    rw [allows_of_lds here lds, decide_eq_true_iff] at allowed
    rw [here, Option.all_some, if_pos rfl]
    exact decide_eq_true (allowed.trans higher)
  · simp only [if_neg same]
    exact allowed

theorem LimitsDiscrepancies.explore (limits : t.LimitsDiscrepancies) (id : NodeId) (more : Nat) :
    (t.explore id (.lds more)).LimitsDiscrepancies := by
  intro raised member
  obtain ⟨other, here⟩ := Array.mem_iff_getElem?.1 member
  obtain ⟨node, found, rfl⟩ := exists_of_node?_reexplore here
  dsimp only
  split
  · exact .inr ⟨more, rfl⟩
  · exact limits node (Array.mem_of_getElem? found)

/-- With a higher limit at one node no way is lost, and their order stays. -/
theorem waysFrom_sublist_explore (limits : t.LimitsDiscrepancies) (here : t.node? id = some node)
    (lds : node.search.exploration = .lds limit) {more : Nat} (higher : limit ≤ more) (s : Store) :
    (t.waysFrom s).Sublist ((t.explore id (.lds more)).waysFrom s) := by
  rw [waysFrom_eq_filter limits, waysFrom_eq_filter (limits.explore id more), plain_explore]
  refine List.monotone_filter_right _ fun w keeps => ?_
  have root : (t.explore id (.lds more)).root? = t.root? := root?_reexplore
  unfold keepsLimits at keeps ⊢
  rw [root]
  cases found : t.root? with
  | none => rfl
  | some root =>
    rw [found, Option.all_some, List.all_eq_true] at keeps
    rw [Option.all_some, List.all_eq_true]
    exact fun stage member => allows_explore here lds higher (keeps stage member)

end Ways

/-! ## No discrepancy at all -/

/-- Without discrepancies only the first candidate of a decision is tried. -/
theorem choose_of_greedy {α : Type} {after : Pick → α → α} {below : PathState → Store → List α}
    (path : PathState) (s : Store) (size : Nat) (choices : List Choice) :
    choose after below [.lds 0] path s size 0 choices = [] ∨
      ∃ u, choose after below [.lds 0] path s size 0 choices =
        (below path u).map (after ⟨0, size⟩) := by
  cases choices with
  | nil => exact .inl rfl
  | cons choice rest =>
    have first : Decorator.stepAll? [.lds 0] path 0 size = some path := rfl
    have second : Decorator.stepAll? [.lds 0] path 1 size = none := rfl
    rw [choose_of_admitted first, choose_of_refused second, List.append_nil]
    split
    · exact .inr ⟨_, rfl⟩
    · exact .inl rfl

/-- A node that allows no discrepancy ends its stage at most once whenever it is entered, and it
takes the first candidates on the way there. -/
theorem stageWays_of_greedy {t : SearchTree} {id : NodeId} {node : SearchNode}
    (here : t.node? id = some node) (greedy : node.search.exploration = .lds 0) (frames : Nat)
    (path : PathState) (s : Store) : (t.stageWays frames id path s).length ≤ 1 ∧
      ∀ e ∈ t.stageWays frames id path s, ∀ pick ∈ e.here, pick.index = 0 := by
  induction frames generalizing s with
  | zero => exact ⟨Nat.zero_le 1, List.forall_mem_nil _⟩
  | succ frames ih =>
    cases picked : node.search.variableOrder.select? s node.vars with
    | none =>
      rw [stageWays_of_decided here picked]
      exact ⟨Nat.le_refl 1, by simp⟩
    | some var =>
      rw [stageWays_of_picked here picked, SearchNode.decorators, greedy]
      rcases choose_of_greedy path s (listed node s var).size (listed node s var).candidates.toList
        with none | ⟨u, one⟩
      · rw [Exploration.decorators, none]
        exact ⟨Nat.zero_le 1, List.forall_mem_nil _⟩
      · rw [Exploration.decorators, one, List.length_map]
        refine ⟨(ih u).1, fun e member pick among => ?_⟩
        obtain ⟨e', found, rfl⟩ := List.mem_map.1 member
        rcases List.mem_cons.1 among with rfl | later
        · rfl
        · exact (ih u).2 e' found pick later

section Courses

variable {ρ : Type} [Reporter ρ] {t : SearchTree} {frames : Nat} {task : SearchTask}
  {st : SearchState ρ} {steps : List (SearchStep ρ)} {outcome : Flow × SearchState ρ}

/-- Only candidates that no decorator leaves out are decided. -/
theorem Course.admitted_of_decide (course : t.Course frames task st steps outcome) {trial : Trial}
    {st' : SearchState ρ} (decides : .decide trial st' ∈ steps) :
    ∃ node, t.node? trial.id = some node ∧
      Decorator.stepAll? node.decorators trial.path trial.index trial.size ≠ none := by
  induction course with
  | spent | missing | emptied | solved | late | pruned => simp at decides
  | descended _ _ _ _ ih | branched _ _ _ _ ih => exact ih decides
  | failed here _ _ admitted _ _ ih | ended here _ _ admitted _ _ _ ih =>
    simp only [List.mem_cons, SearchStep.decide.injEq, reduceCtorEq, false_or] at decides
    rcases decides with ⟨rfl, -⟩ | decides
    · exact ⟨_, here, admitted ▸ nofun⟩
    · exact ih decides
  | returned here _ _ admitted _ _ _ ihBelow ihLater =>
    simp only [List.mem_cons, List.mem_append, SearchStep.decide.injEq, reduceCtorEq,
      false_or] at decides
    rcases decides with ⟨rfl, -⟩ | decides | decides
    · exact ⟨_, here, admitted ▸ nofun⟩
    · exact ihBelow decides
    · exact ihLater decides

theorem Follows.admitted_of_decide (follows : t.Follows st steps) {trial : Trial}
    {st' : SearchState ρ} (decides : .decide trial st' ∈ steps) :
    ∃ node, t.node? trial.id = some node ∧
      Decorator.stepAll? node.decorators trial.path trial.index trial.size ≠ none := by
  cases follows with
  | empty | inconsistent => cases decides
  | searched _ _ course => exact course.admitted_of_decide decides

/-- What becomes of a node that allows no discrepancy. It decides first candidates only; whenever
it is entered, there is at most one way through its stage, on which the first candidates are
chosen; and what is found there is what is found at the end of that way. -/
structure Greedy (t : SearchTree) (id : NodeId) (steps : List (SearchStep ρ)) : Prop where
  first : ∀ trial st', .decide trial st' ∈ steps → trial.id = id → trial.index = 0
  once : ∀ frames s, (t.stageWays frames id .start s).length ≤ 1 ∧
    ∀ e ∈ t.stageWays frames id .start s, ∀ pick ∈ e.here, pick.index = 0
  entered : ∀ frames (u : SearchState ρ) inner outcome,
    t.Course frames (.label id 0 .start) u inner outcome → u.store.Formed → u.Regular t →
      SearchStep.accepted inner = (t.stageWays frames id .start u.store).flatMap fun e =>
        (t.waysOnward id e.frames e.store).map Way.leaf

theorem Follows.greedy (boundless : ∀ node ∈ t.nodes, node.bound = none)
    (follows : t.Follows st steps) {id : NodeId} {node : SearchNode}
    (here : t.node? id = some node) (greedy : node.search.exploration = .lds 0) :
    t.Greedy id steps where
  first := by
    rintro trial st' decides rfl
    obtain ⟨node', here', admitted⟩ := follows.admitted_of_decide decides
    obtain rfl := Option.some.inj (here.symm.trans here')
    rw [SearchNode.decorators, greedy, Exploration.decorators,
      Decorator.stepAll?_singleton] at admitted
    obtain ⟨path', step⟩ := Option.ne_none_iff_exists'.1 admitted
    obtain ⟨counted, most⟩ := Decorator.discrepancies_of_step? step
    by_contra other
    have positive : 0 < trial.index := Nat.pos_of_ne_zero other
    rw [if_pos positive] at counted
    have none := most positive
    omega
  once frames s := stageWays_of_greedy here greedy frames .start s
  entered frames u inner outcome course formed regular := by
    rw [(course.finds boundless formed regular).accepted]
    show (t.ways frames id .start u.store).map Way.leaf = _
    rw [ways_eq_flatMap, List.map_flatMap]
    simp only [List.map_map]
    rfl

/-! ## Whole runs -/

/-- A run with limits of discrepancies reports, in the same order, the solutions of the run
without limits to which there is a way that keeps to the limits. So with a higher limit at one
node no solution is lost, and a node that allows no discrepancy is searched greedily. -/
theorem reports_within_limits (enumerates : t.Enumerates st) (limits : t.LimitsDiscrepancies) :
    ∃ (steps whole : List (SearchStep ρ)) (found all : List Solution),
      t.Reports st steps found ∧ t.plain.Reports st whole all ∧
      t.plain.FindsAll whole (t.plain.waysFrom st.store) ∧
      SearchStep.accepted steps =
        ((t.plain.waysFrom st.store).filter t.keepsLimits).map Way.leaf ∧
      (∀ id node limit more, t.node? id = some node → node.search.exploration = .lds limit →
        limit ≤ more → ∃ wider foundMore,
          (t.explore id (.lds more)).Reports st wider foundMore ∧
          (SearchStep.accepted steps).Sublist (SearchStep.accepted wider)) ∧
      ∀ id node, t.node? id = some node → node.search.exploration = .lds 0 →
        t.Greedy id steps := by
  obtain ⟨steps, follows⟩ := t.exists_follows st
  obtain ⟨whole, follows'⟩ := t.plain.exists_follows st
  refine ⟨steps, whole, _, _, follows.reports, follows'.reports,
    (enumerates.reexplore _).findsAll follows', ?_, fun id node limit more here lds higher => ?_,
    fun id node here greedy => follows.greedy enumerates.boundless here greedy⟩
  · rw [(enumerates.findsAll follows).accepted, waysFrom_eq_filter limits]
  · obtain ⟨wider, follows''⟩ := (t.explore id (.lds more)).exists_follows st
    refine ⟨wider, _, follows''.reports, ?_⟩
    have found := (enumerates.reexplore _).findsAll follows''
    rw [(enumerates.findsAll follows).accepted, found.accepted]
    exact (waysFrom_sublist_explore limits here lds higher st.store).map _

/-- One of four solutions is within the limits. The first candidate of the first decision fails,
so the second one is a discrepancy, after which no other one is allowed. -/
theorem reports_within_limits_one :
    ∃ (t : SearchTree) (st : SearchState NoReporter) (steps whole : List (SearchStep NoReporter))
      (found all : List Solution), st.context.listener = Listener.all none ∧
      t.nodes.toList.map (·.search.exploration) = [.lds 1, .lds 0] ∧
      t.Reports st steps found ∧ t.plain.Reports st whole all ∧
      SearchStep.accepted steps =
        ((t.plain.waysFrom st.store).filter t.keepsLimits).map Way.leaf ∧
      t.Greedy 1 steps ∧ all.length = 4 ∧ found.length = 1 := by
  let s := StoreOperation.applyAll Store.empty
    [.declareInt "x" 0 1, .declareInt "y" 1 2, .declareInt "z" 1 2, .declareBool "b",
      .impose (.allDifferent [⟨0⟩, ⟨1⟩, ⟨2⟩])]
  let t := SearchTree.ofStages none
    [⟨⟨.int, [⟨0⟩, ⟨1⟩, ⟨2⟩], .inputOrder, .max, .lds 1, .descending⟩, .explicit⟩,
      ⟨⟨.int, [⟨3⟩], .inputOrder, .min, .lds 0, .ascending⟩, .completion⟩]
  let st : SearchState NoReporter :=
    ⟨Progress.ofTree t, s, Context.ofListener (Listener.all none)⟩
  have enumerates : t.Enumerates st :=
    { grown := grown_ofStages _ _
      nodes := by decide +kernel
      reached := Store.Reachable.empty.applyAll (by decide)
      boundless := by decide +kernel
      steady := steady_ofTree (by decide +kernel)
      endless := Listener.endless_of_reporter_none rfl rfl rfl
      unlimited := rfl }
  have explorations : ∀ node ∈ t.nodes, node.search.exploration = .lds 1 ∨
      node.search.exploration = .lds 0 := by decide +kernel
  have limits : t.LimitsDiscrepancies := fun node member =>
    .inr ((explorations node member).elim (⟨1, ·⟩) (⟨0, ·⟩))
  obtain ⟨steps, whole, found, all, reports, reports', -, kept, -, greedy⟩ :=
    reports_within_limits enumerates limits
  have count : (t.run st).2.context.listener.count = 1 := by decide +kernel
  have count' : (t.plain.run st).2.context.listener.count = 4 := by decide +kernel
  have length := reports.reports.count.symm.trans count
  have length' := reports'.reports.count.symm.trans count'
  rw [show st.context.listener.count = 0 from rfl, Nat.zero_add] at length length'
  exact ⟨t, st, steps, whole, found, all, rfl, by decide +kernel, reports, reports', kept,
    greedy 1 _ rfl rfl, length', length⟩

end Courses

end SearchTree

end StagedSearch
