/-
# Credit search

A decision shares out the credit that is left among all its candidates, and those that get
nothing are left out. A candidate that gets one unit, or is deep enough, is explored completely.
So no more is found than without credit, in the same order, and everything is found if there is
enough of it: a unit for each way through as many decisions as credit is shared out at.

The induction is on the frames. What it carries is that the credit left pays for the decisions to
come on each way to a solution; a decision without such a way may leave out what it likes, since
nothing is found below it anyway.
-/

import Mathlib.Algebra.Ring.Nat
import StagedSearch.Proofs.Search.Deadline
import StagedSearch.Proofs.Search.Reexplored

namespace StagedSearch

/-! ## Sharing out -/

/-- The credit at some depth pays for some picks: their decisions have few candidates, there are
not many of them, and a unit is left for each way down to where credit no longer matters. -/
structure AmpleCredit (width length limit depth available : Nat) (picks : List Pick) : Prop where
  narrow : ∀ pick ∈ picks, pick.size ≤ width
  short : depth + picks.length ≤ length
  units : max 1 width ^ (min limit length - depth) ≤ available

/-- The credit on the way to a decision pays for some picks from there on. -/
def CreditState.PaysFor (units limit : Nat) (picks : List Pick) : CreditState → Prop
  | fresh => ∃ width length, AmpleCredit width length limit 0 units picks
  | active available depth => ∃ width length, AmpleCredit width length limit depth available picks
  | exhaustive => True

namespace Decorator

variable {width length units limit depth available : Nat} {pick : Pick} {picks : List Pick}

/-- What is divided by the number of candidates is what each of them gets at least. -/
theorem le_creditShare {part count : Nat} (positive : 0 < count)
    (enough : part * count ≤ available) (index : Nat) :
    part ≤ creditShare available index count :=
  ((Nat.le_div_iff_mul_le positive).2 enough).trans (Nat.le_add_right _ _)

/-- Before credit ceases to matter, each candidate gets what pays for one decision less. -/
theorem pow_le_creditShare (ample : AmpleCredit width length limit depth available (pick :: picks))
    (shallow : depth < limit) (index : Nat) :
    max 1 width ^ (min limit length - (depth + 1)) ≤
      creditShare available index (max 1 pick.size) := by
  have short := ample.short
  rw [List.length_cons] at short
  have levels : min limit length - depth = min limit length - (depth + 1) + 1 := by omega
  have narrow : max 1 pick.size ≤ max 1 width :=
    max_le_max_left 1 (ample.narrow pick List.mem_cons_self)
  refine le_creditShare (lt_max_of_lt_left Nat.one_pos) ?_ index
  calc max 1 width ^ (min limit length - (depth + 1)) * max 1 pick.size
      ≤ max 1 width ^ (min limit length - (depth + 1)) * max 1 width := Nat.mul_le_mul_left _ narrow
    _ = max 1 width ^ (min limit length - depth) := by rw [levels, pow_succ]
    _ ≤ available := ample.units

/-- A share that is not nothing is spent, and pays for what comes if it is large enough. -/
theorem exists_spend {share : Nat} (positive : 1 ≤ share) (depth : Nat) :
    ∃ state, spend share depth = some state ∧
      (state = .exhaustive ∨ state = .active share (depth + 1)) := by
  match share with
  | 1 => exact ⟨_, rfl, .inl rfl⟩
  | share + 2 => exact ⟨_, rfl, .inr rfl⟩

/-- If the credit pays for a pick, then no candidate of its decision is left out, and what is left
pays for whatever the credit pays for after that decision. -/
theorem exists_share (ample : AmpleCredit width length limit depth available (pick :: picks))
    (index : Nat) : ∃ state,
      (if limit ≤ depth then some .exhaustive
        else spend (creditShare available index (max 1 pick.size)) depth) = some state ∧
      ∀ other later,
        (∃ width length,
          AmpleCredit width length limit depth available (⟨other, pick.size⟩ :: later)) →
        state.PaysFor units limit later := by
  by_cases deep : limit ≤ depth
  · exact ⟨.exhaustive, if_pos deep, fun _ _ _ => trivial⟩
  · have shallow := Nat.lt_of_not_le deep
    have positive : 1 ≤ max 1 width ^ (min limit length - (depth + 1)) :=
      Nat.one_le_pow _ _ (lt_max_of_lt_left Nat.one_pos)
    obtain ⟨state, spent, next⟩ :=
      exists_spend (positive.trans (pow_le_creditShare ample shallow index)) depth
    refine ⟨state, (if_neg deep).trans spent, ?_⟩
    rintro other later ⟨width', length', ample'⟩
    rcases next with rfl | rfl
    · trivial
    · have short := ample'.short
      rw [List.length_cons] at short
      exact ⟨width', length', fun pick' among => ample'.narrow pick' (List.mem_cons_of_mem _ among),
        by omega, pow_le_creditShare ample' shallow index⟩

/-- If the credit on a path pays for a pick, then every candidate of its decision is tried. -/
theorem exists_step?_of_paysFor {path : PathState}
    (pays : path.credit.PaysFor units limit (pick :: picks)) (index : Nat) :
    ∃ next, (credit units limit).step? path index pick.size = some next ∧ ∀ other later,
      path.credit.PaysFor units limit (⟨other, pick.size⟩ :: later) →
        next.credit.PaysFor units limit later := by
  obtain ⟨discrepancies, state⟩ := path
  have below : ∃ next, creditBelow? units limit state index pick.size = some next ∧
      ∀ other later, state.PaysFor units limit (⟨other, pick.size⟩ :: later) →
        next.PaysFor units limit later := by
    cases state with
    | fresh | active =>
      obtain ⟨_, _, ample⟩ := pays
      exact exists_share ample index
    | exhaustive => exact ⟨.exhaustive, rfl, fun _ _ _ => trivial⟩
  obtain ⟨next, step, after⟩ := below
  refine ⟨⟨discrepancies, next⟩, ?_, after⟩
  unfold step?
  dsimp only
  rw [step]
  rfl

end Decorator

namespace SearchTree

/-! ## Choosing with enough credit -/

/-- If no candidate is left out, then below each of them what is found without decorators has to be
found. -/
theorem choose_eq_plain {α : Type} {after : Pick → α → α}
    {below below' : PathState → Store → List α} {decorators : List Decorator}
    {path path' : PathState} {s : Store} {size : Nat} {holds : α → Prop}
    (admits : ∀ index, ∃ next, Decorator.stepAll? decorators path index size = some next ∧
      ∀ u, (∀ a ∈ below' path' u, holds (after ⟨index, size⟩ a)) → below next u = below' path' u)
    (index : Nat) (choices : List Choice)
    (found : ∀ a ∈ choose after below' [] path' s size index choices, holds a) :
    choose after below decorators path s size index choices =
      choose after below' [] path' s size index choices := by
  induction choices generalizing index with
  | nil => rfl
  | cons choice rest ih =>
    have plain : Decorator.stepAll? [] path' index size = some path' := rfl
    obtain ⟨next, step, same⟩ := admits index
    rw [choose_of_admitted plain] at found
    rw [choose_of_admitted step, choose_of_admitted plain,
      ih (index + 1) fun a member => found a (List.mem_append_right _ member)]
    congr 1
    split
    · rename_i consistent
      rw [if_pos consistent] at found
      rw [same _ fun a member =>
        found _ (List.mem_append_left _ (List.mem_map_of_mem member))]
    · rfl

def SharesCredit (t : SearchTree) : Prop :=
  ∀ node ∈ t.nodes, node.search.exploration = .complete ∨
    ∃ units limit, node.search.exploration = .credit units limit

/-- If a node is explored with a credit, then what is left of it pays for some picks. -/
def PaysFor (t : SearchTree) (state : CreditState) (id : NodeId) (picks : List Pick) : Prop :=
  ∀ node units limit, t.node? id = some node → node.search.exploration = .credit units limit →
    state.PaysFor units limit picks

/-- The credit left in the first stage of a way, and that of each later stage, pays for it. -/
structure PaysForWay (t : SearchTree) (state : CreditState) (id : NodeId) (w : Way) : Prop where
  here : t.PaysFor state id w.here
  later : ∀ stage ∈ w.later, t.PaysFor .fresh stage.1 stage.2

section Ways

variable {t : SearchTree} {id : NodeId} {node : SearchNode} {frames : Nat}
  {path path' : PathState} {s : Store}

theorem PaysForWay.of_into {state : CreditState} {child : NodeId} {w : Way}
    (pays : t.PaysForWay state id (w.into child)) :
    t.PaysForWay .fresh child w :=
  ⟨pays.later _ List.mem_cons_self, fun stage member =>
    pays.later stage (List.mem_cons_of_mem _ member)⟩

/-- At a node that is explored completely, nothing is lost if nothing is lost below. -/
theorem choose_plain_of_complete (here : t.node? id = some node)
    (complete : node.search.exploration = .complete)
    (deeper : ∀ u, (∀ w ∈ t.plain.ways frames id path' u,
      t.PaysForWay path.credit id w) →
        t.ways frames id path u = t.plain.ways frames id path' u)
    {size index : Nat} {choices : List Choice}
    (pays : ∀ w ∈ choose Way.after (t.plain.ways frames id) [] path' s size index choices,
      t.PaysForWay path.credit id w) :
    choose Way.after (t.ways frames id) [] path s size index choices =
      choose Way.after (t.plain.ways frames id) [] path' s size index choices := by
  refine choose_eq_plain (fun index => ⟨path, rfl, fun u paid => deeper u fun w member => ?_⟩)
    index choices pays
  refine ⟨fun node' units limit here' credit => ?_, (paid w member).later⟩
  obtain rfl := Option.some.inj (here.symm.trans here')
  rw [complete] at credit
  cases credit

/-- At a node whose credit pays for what is to be found, nothing is lost if nothing is lost
below. -/
theorem choose_plain_of_credit (here : t.node? id = some node) {units limit : Nat}
    (credit : node.search.exploration = .credit units limit)
    (deeper : ∀ next u, (∀ w ∈ t.plain.ways frames id path' u,
      t.PaysForWay next.credit id w) →
        t.ways frames id next u = t.plain.ways frames id path' u)
    {size index : Nat} {choices : List Choice}
    (pays : ∀ w ∈ choose Way.after (t.plain.ways frames id) [] path' s size index choices,
      t.PaysForWay path.credit id w) {w : Way}
    (found : w ∈ choose Way.after (t.plain.ways frames id) [] path' s size index choices) :
    choose Way.after (t.ways frames id) [.credit units limit] path s size index choices =
      choose Way.after (t.plain.ways frames id) [] path' s size index choices := by
  obtain ⟨other, u, below, -, -, rfl⟩ := exists_of_mem_choose found
  have paid := (pays _ found).here node units limit here credit
  refine choose_eq_plain (fun index => ?_) index choices pays
  obtain ⟨next, step, after⟩ := Decorator.exists_step?_of_paysFor paid index
  refine ⟨next, (Decorator.stepAll?_singleton _ _ _ _).trans step, fun u paid' => deeper next u ?_⟩
  refine fun w member => ⟨fun node' units' limit' here' credit' => ?_, (paid' w member).later⟩
  obtain rfl := Option.some.inj (here.symm.trans here')
  cases credit.symm.trans credit'
  exact after index w.here ((paid' w member).here node units limit here credit)

/-- With credit that pays for all ways without decorators, these are found. -/
theorem ways_eq_plain (shares : t.SharesCredit) (frames : Nat) (id : NodeId)
    (path path' : PathState) (s : Store)
    (pays : ∀ w ∈ t.plain.ways frames id path' s, t.PaysForWay path.credit id w) :
    t.ways frames id path s = t.plain.ways frames id path' s := by
  induction frames generalizing id path path' s with
  | zero => rfl
  | succ frames ih =>
    have fewer := t.ways_sublist_plain (frames + 1) id path path' s
    cases here : t.node? id with
    | none => rw [ways_of_missing here, plain_ways_of_missing here]
    | some node =>
      cases picked : node.search.variableOrder.select? s node.vars with
      | none =>
        rw [plain_ways_of_decided here picked] at pays ⊢
        rw [ways_of_decided here picked]
        unfold waysOnward at pays ⊢
        rw [children_plain] at pays ⊢
        cases next : (t.children id).head? with
        | none => rfl
        | some child =>
          rw [next] at pays
          refine congrArg (List.map (Way.into child)) (ih child .start .start s fun w member => ?_)
          exact (pays _ (List.mem_map_of_mem member)).of_into
      | some var =>
        -- Below a decision without a way to a solution nothing is found with decorators either.
        by_cases fruitless : t.plain.ways (frames + 1) id path' s = []
        · rw [fruitless] at fewer ⊢
          exact List.sublist_nil.1 fewer
        · obtain ⟨w, found⟩ := List.exists_mem_of_ne_nil _ fruitless
          rw [plain_ways_of_picked here picked] at pays found ⊢
          rw [ways_of_picked here picked, SearchNode.decorators]
          rcases shares node (Array.mem_of_getElem? here) with complete | ⟨units, limit, credit⟩
          · rw [complete]
            exact choose_plain_of_complete here complete (ih id path path') pays
          · rw [credit]
            exact choose_plain_of_credit here credit (fun next => ih id next path') pays found

/-- With credit that pays for all ways without decorators, a run has these ways. -/
theorem waysFrom_eq_plain (shares : t.SharesCredit) (s : Store)
    (pays : ∀ root, t.root? = some root → ∀ w ∈ t.plain.waysFrom s,
      t.PaysForWay .fresh root w) : t.waysFrom s = t.plain.waysFrom s := by
  rcases t.waysFrom_cases s with ⟨none, none'⟩ | ⟨root, found, ways, ways'⟩
  · rw [none, none']
  · rw [ways'] at pays ⊢
    rw [ways]
    exact ways_eq_plain shares _ root .start .start _ (pays root found)

end Ways

/-! ## Whole runs -/

/-- On each way to a solution, without decorators, the decisions in a stage at a node have at most
`width` candidates, and there are at most `length` of them. -/
def Bounds (t : SearchTree) (s : Store) (id : NodeId) (width length : Nat) : Prop :=
  ∀ root, t.root? = some root → ∀ w ∈ t.plain.waysFrom s, ∀ stage ∈ w.stages root, stage.1 = id →
    (∀ pick ∈ stage.2, pick.size ≤ width) ∧ stage.2.length ≤ length

/-- Every credit is at least one unit, and as many as there are ways through the decisions at
which it is shared out. -/
def GivesAmpleCredit (t : SearchTree) (s : Store) : Prop :=
  ∀ id node units limit, t.node? id = some node → node.search.exploration = .credit units limit →
    ∃ width length, t.Bounds s id width length ∧ 1 ≤ units ∧ width ^ min limit length ≤ units

section Runs

variable {ρ : Type} {t : SearchTree} {st : SearchState ρ} {steps : List (SearchStep ρ)} {s : Store}

/-- A stage within its bounds is paid for. -/
theorem GivesAmpleCredit.paysFor (ample : t.GivesAmpleCredit s) {root : NodeId}
    (found : t.root? = some root) {w : Way} (member : w ∈ t.plain.waysFrom s)
    {stage : NodeId × List Pick} (among : stage ∈ w.stages root) :
    t.PaysFor .fresh stage.1 stage.2 := by
  intro node units limit here credit
  obtain ⟨width, length, bounds, positive, enough⟩ := ample stage.1 node units limit here credit
  obtain ⟨narrow, short⟩ := bounds root found w member stage among rfl
  refine ⟨width, length, narrow, (Nat.zero_add _).trans_le short, ?_⟩
  rw [Nat.sub_zero]
  cases width with
  | zero => simpa using positive
  | succ width => simpa [Nat.max_eq_right] using enough

/-- Where all decisions have few candidates and are not deep, the ways are within these bounds. -/
theorem bounds_of_decisions (finds : t.plain.FindsAll steps (t.plain.waysFrom s)) {id : NodeId}
    {width length : Nat} (bounded : ∀ trial st, .decide trial st ∈ steps → trial.id = id →
      trial.size ≤ width ∧ trial.depth < length) : t.Bounds s id width length := by
  rintro root found w member ⟨other, picks⟩ among same
  obtain rfl : other = id := same
  have taken := finds.taken root (root?_reexplore.trans found) w member
  have takes : Takes steps other 0 picks := by
    rcases List.mem_cons.1 among with same | later
    · cases same
      exact taken.here
    · exact taken.later _ later
  constructor
  · intro pick among
    obtain ⟨place, there⟩ := List.mem_iff_getElem?.1 among
    obtain ⟨trial, st, decides, here, -, -, size⟩ := takes place pick there
    exact size ▸ (bounded trial st decides here).1
  · show picks.length ≤ length
    cases last : picks.length with
    | zero => exact Nat.zero_le length
    | succ place =>
      obtain ⟨trial, st, decides, here, depth, -⟩ :=
        takes place _ (List.getElem?_eq_getElem (last ▸ Nat.lt_succ_self place))
      have deepest := (bounded trial st decides here).2
      omega

/-- A run with credit reports some of the solutions of the run without it, in the same order. It
reports all of them if the credit is ample. What this asks of the ways to solutions holds if all
decisions that the run without credit takes at a node have at most `width` candidates and come
after fewer than `length` others on their way. -/
theorem reports_all_with_credit [Reporter ρ] (enumerates : t.Enumerates st)
    (shares : t.SharesCredit) :
    ∃ (steps whole : List (SearchStep ρ)) (found all : List Solution),
      t.Reports st steps found ∧ t.plain.Reports st whole all ∧
      (SearchStep.accepted steps).Sublist (SearchStep.accepted whole) ∧
      (∀ id width length, (∀ trial st', .decide trial st' ∈ whole → trial.id = id →
        trial.size ≤ width ∧ trial.depth < length) → t.Bounds st.store id width length) ∧
      (t.GivesAmpleCredit st.store →
        SearchStep.accepted steps = SearchStep.accepted whole ∧ found = all) := by
  obtain ⟨steps, follows⟩ := t.exists_follows st
  obtain ⟨whole, follows'⟩ := t.plain.exists_follows st
  have finds := enumerates.findsAll follows
  have finds' := (enumerates.reexplore _).findsAll follows'
  have sublist : (SearchStep.accepted steps).Sublist (SearchStep.accepted whole) := by
    rw [finds.accepted, finds'.accepted]
    exact (t.waysFrom_sublist_plain st.store).map _
  refine ⟨steps, whole, _, _, follows.reports, follows'.reports, sublist,
    fun id width length => bounds_of_decisions finds', fun ample => ?_⟩
  have same : SearchStep.accepted steps = SearchStep.accepted whole := by
    rw [finds.accepted, finds'.accepted]
    refine congrArg (List.map Way.leaf) (waysFrom_eq_plain shares _ fun root found w member => ?_)
    have pays : ∀ stage ∈ w.stages root, t.PaysFor .fresh stage.1 stage.2 :=
      fun _ => ample.paysFor found member
    exact ⟨pays _ List.mem_cons_self, fun stage among => pays stage (List.mem_cons_of_mem _ among)⟩
  exact ⟨same, congrArg _ same⟩

/-- Nine units pay for two decisions with three candidates each. There is nothing to spare: only the
last candidate of the second decision does not fail, and with eight units it gets nothing once. -/
theorem reports_all_with_credit_nine :
    ∃ (t : SearchTree) (st : SearchState NoReporter) (steps whole : List (SearchStep NoReporter))
      (found all : List Solution), st.context.listener = Listener.all none ∧
      t.nodes.toList.map (·.search.exploration) = [.credit 9 2, .complete] ∧
      t.Reports st steps found ∧ t.plain.Reports st whole all ∧ t.GivesAmpleCredit st.store ∧
      SearchStep.accepted steps = SearchStep.accepted whole ∧ found = all ∧
      (t.run st).2.context.listener.count = 6 ∧
      ((t.explore 0 (.credit 8 2)).run st).2.context.listener.count = 4 := by
  let s := StoreOperation.applyAll Store.empty
    [.declareInt "x" 0 2, .declareInt "y" 0 2, .declareBool "u", .declareBool "v",
      .impose (.allDifferent [⟨1⟩, ⟨2⟩, ⟨3⟩])]
  let t := SearchTree.ofStages none
    [⟨⟨.int, [⟨0⟩, ⟨1⟩], .inputOrder, .min, .credit 9 2, .ascending⟩, .explicit⟩,
      ⟨⟨.int, [⟨2⟩], .inputOrder, .min, .complete, .ascending⟩, .completion⟩]
  let st : SearchState NoReporter :=
    ⟨Progress.ofTree t, s, Context.ofListener (Listener.all none)⟩
  have enumerates : t.Enumerates st :=
    { grown := grown_ofStages _ _
      nodes := by decide +kernel
      reached := Store.Reachable.empty.applyAll (by decide)
      boundless := by decide +kernel
      steady := steady_ofTree (by decide +kernel)
      endless := Listener.endless_of_reporter_none rfl rfl rfl
      unlimited := rfl }
  have explorations : ∀ node ∈ t.nodes, node.search.exploration = .credit 9 2 ∨
      node.search.exploration = .complete := by decide +kernel
  have shares : t.SharesCredit := fun node member =>
    (explorations node member).elim (fun credit => .inr ⟨9, 2, credit⟩) .inl
  have few : ∀ w ∈ t.plain.waysFrom st.store, ∀ stage ∈ w.stages 0,
      (∀ pick ∈ stage.2, pick.size ≤ 3) ∧ stage.2.length ≤ 2 := by decide +kernel
  have ample : t.GivesAmpleCredit st.store := by
    intro id node units limit here credit
    refine ⟨3, 2, fun root found => ?_, ?_⟩
    · obtain rfl : 0 = root := Option.some.inj found
      exact fun w member stage among _ => few w member stage among
    · rcases explorations node (Array.mem_of_getElem? here) with nine | complete
      · cases nine.symm.trans credit
        decide
      · cases complete.symm.trans credit
  obtain ⟨steps, whole, found, all, reports, reports', -, -, same⟩ :=
    reports_all_with_credit enumerates shares
  exact ⟨t, st, steps, whole, found, all, rfl, by decide +kernel, reports, reports', ample,
    (same ample).1, (same ample).2, by decide +kernel, by decide +kernel⟩

end Runs

end SearchTree

end StagedSearch
