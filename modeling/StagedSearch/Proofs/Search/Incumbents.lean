/-
# Strict improvement

The incumbents of an optimization go strictly down. No store is handed over that has not been
entered by a decision since the latest incumbent was set: a piece of search that lets the search
go on puts the store back, so the next store to be handed over lies below a later decision, and
every decision demands that the bound is below the incumbent of its time. This holds as well
where the bound is not decided and the incumbent is its least value.

Costs that are recorded with solutions are known, so the bound has their rank, and they improve
strictly, too. Below the least value of the range there is nothing, so a search that has it as its
incumbent hands over nothing more.
-/

import StagedSearch.Proofs.Search.Course
import StagedSearch.Proofs.Search.Optimum

namespace StagedSearch

/-! ## Stores that improve on each other -/

namespace Store

variable {bound : Option VarId} {incumbent : Option Int} {leaves : List Store}

/-- Each solution has a bound below those of all earlier ones, and below the incumbent at first. -/
theorem Improving.pairwise (improving : Improving bound incumbent leaves)
    (canonical : ∀ u ∈ leaves, u.domains.Canonical) :
    (leaves.Pairwise fun u w => ∀ earlier later, SearchState.boundValue? u bound = some earlier →
        SearchState.boundValue? w bound = some later → later < earlier) ∧
      ∀ best, incumbent = some best → ∀ u ∈ leaves, ∀ value,
        SearchState.boundValue? u bound = some value → value < best := by
  induction leaves generalizing incumbent with
  | nil => simp
  | cons u rest ih =>
    obtain ⟨improves, later⟩ := improving
    have below (best : Int) (here : incumbent = some best) (value : Int)
        (reached : SearchState.boundValue? u bound = some value) : value < best := by
      obtain ⟨var, bounded, holds⟩ := holds_of_boundValue? (canonical u (by simp)) reached
      exact improves var best bounded here value holds
    obtain ⟨apart, under⟩ := ih later fun w member => canonical w (by simp [member])
    refine ⟨List.pairwise_cons.2 ⟨fun w member first second reached reached' => ?_, apart⟩, ?_⟩
    · exact under first (by rw [advance, reached]; rfl) w member second reached'
    · intro best here w member value reached
      rcases List.mem_cons.1 member with rfl | member
      · exact below best here value reached
      · cases own : SearchState.boundValue? u bound with
        | none => exact under best (by rw [advance, own]; exact here) w member value reached
        | some middle =>
          have first := below best here middle own
          have second := under middle (by rw [advance, own]; rfl) w member value reached
          omega

/-- The incumbent after some solutions is the bound of the last one that has one. -/
theorem advanceAll_eq_getLast? (bound : Option VarId) (incumbent : Option Int)
    (leaves : List Store) :
    advanceAll bound incumbent leaves =
      (leaves.filterMap (SearchState.boundValue? · bound)).getLast?.or incumbent := by
  induction leaves generalizing incumbent with
  | nil => rfl
  | cons u rest ih =>
    show advanceAll bound (advance bound incumbent u) rest = _
    rw [ih, advance]
    cases own : SearchState.boundValue? u bound with
    | none => simp [own]
    | some value =>
      simp only [List.filterMap_cons, own, List.getLast?_cons]
      cases (rest.filterMap (SearchState.boundValue? · bound)).getLast? <;> rfl

/-- A bound has a value in a store further down exactly if the store above holds one for it. -/
theorem Descends.exists_boundValue?_iff {s u : Store} (descends : s.Descends u) {var : VarId} :
    (∃ value, SearchState.boundValue? u (some var) = some value) ↔
      ∃ value, s.domains.Holds var value := by
  constructor
  · rintro ⟨value, reached⟩
    obtain ⟨_, same, holds⟩ := holds_of_boundValue? descends.formed.canonical reached
    obtain rfl := Option.some.inj same
    exact ⟨value, descends.within.holds holds⟩
  · rintro ⟨value, d, here, inside⟩
    rw [DomainTable.int?_eq_some_iff] at here
    obtain ⟨e, there, inner⟩ := descends.within.smaller here
    have filled := descends.hasValue var (.int d) e here there ⟨value, inside⟩
    cases e with
    | set e => exact inner.elim
    | int e =>
      obtain ⟨low, high, least, -⟩ :=
        (descends.formed.canonical var _ there).exists_bounds filled
      simp only [SearchState.boundValue?, DomainTable.int?_eq_some_iff.2 there,
        Option.bind_eq_bind, Option.bind_some, least]
      cases e.value? with
      | none => exact ⟨low, rfl⟩
      | some only => exact ⟨only, rfl⟩

/-- If a bound has a value in one store further down, then it has one in every other. -/
theorem Descends.exists_boundValue? {s u w : Store} (left : s.Descends u) (right : s.Descends w)
    {value : Int} (reached : SearchState.boundValue? u bound = some value) :
    ∃ other, SearchState.boundValue? w bound = some other := by
  obtain ⟨var, rfl, -⟩ := holds_of_boundValue? left.formed.canonical reached
  exact right.exists_boundValue?_iff.2 (left.exists_boundValue?_iff.1 ⟨value, reached⟩)

end Store

/-! ## Pieces of search -/

namespace SearchState

variable {ρ : Type} {t : SearchTree} {bound : Option VarId} {declarations : Array Variable}
  {st st₁ st₂ st' : SearchState ρ} {first second steps : List (SearchStep ρ)}

/-- What the steps of a piece of search have to do with the incumbent. The stores that are handed
over improve one after the other on the incumbent at the start, and where a bound has a value it
becomes the incumbent. -/
structure Lowers (t : SearchTree) (bound : Option VarId) (st : SearchState ρ)
    (steps : List (SearchStep ρ)) (st' : SearchState ρ) : Prop where
  store : st'.store = st.store
  incumbent : st'.context.incumbent? =
    Store.advanceAll bound st.context.incumbent? (SearchStep.accepted steps)
  sets : ∀ step ∈ steps, step.incumbent? t = step.accepted?.bind (boundValue? · bound)
  leaf : ∀ u ∈ SearchStep.accepted steps,
    st.store.Descends u ∧ u.domains.Stable st.store.rules
  improving : Store.Improving bound st.context.incumbent? (SearchStep.accepted steps)

theorem Lowers.of_quiet (quiet : Quiet t st st') : Lowers t bound st [] st' where
  store := quiet.store
  incumbent := quiet.incumbent
  sets := by simp
  leaf := by simp
  improving := trivial

/-- Looking at the clock and deciding set no incumbent. -/
theorem Lowers.look (lowers : Lowers t bound st steps st') (trial : Trial)
    (other : SearchState ρ) : Lowers t bound st (.look trial other :: steps) st' :=
  ⟨lowers.store, lowers.incumbent, List.forall_mem_cons.2 ⟨rfl, lowers.sets⟩, lowers.leaf,
    lowers.improving⟩

theorem Lowers.decide (lowers : Lowers t bound st steps st') (trial : Trial)
    (other : SearchState ρ) : Lowers t bound st (.decide trial other :: steps) st' :=
  ⟨lowers.store, lowers.incumbent, List.forall_mem_cons.2 ⟨rfl, lowers.sets⟩, lowers.leaf,
    lowers.improving⟩

theorem Lowers.append (left : Lowers t bound st first st₁) (right : Lowers t bound st₁ second st') :
    Lowers t bound st (first ++ second) st' where
  store := right.store.trans left.store
  incumbent := by
    rw [right.incumbent, left.incumbent, SearchStep.accepted_append, Store.advanceAll_append]
  sets step member := (List.mem_append.1 member).elim (left.sets step) (right.sets step)
  leaf u member := by
    rw [SearchStep.accepted_append, List.mem_append] at member
    rcases member with early | late
    · exact left.leaf u early
    · exact left.store ▸ right.leaf u late
  improving := by
    rw [SearchStep.accepted_append]
    exact Store.improving_append.2 ⟨left.improving, left.incumbent ▸ right.improving⟩

/-- Accounts that are kept before and after do not matter. -/
theorem Lowers.between (lowers : Lowers t bound st₁ steps st₂) (start : Quiet t st st₁)
    (finish : Quiet t st₂ st') : Lowers t bound st steps st' := by
  have whole := ((Lowers.of_quiet start).append lowers).append (.of_quiet finish)
  simpa using whole

/-- What happens inside a level happens below the store in which it was opened. -/
theorem Lowers.popLevel (lowers : Lowers t bound st₁ steps st')
    (descends : st.store.Descends st₁.store) (back : st₁.store.popLevel = st.store)
    (incumbent : st₁.context.incumbent? = st.context.incumbent?) :
    Lowers t bound st steps st'.popLevel where
  store := by
    show st'.store.popLevel = st.store
    rw [lowers.store, back]
  incumbent := incumbent ▸ lowers.incumbent
  sets := lowers.sets
  leaf u member := by
    obtain ⟨further, stable⟩ := lowers.leaf u member
    exact ⟨descends.trans further, descends.rules ▸ stable⟩
  improving := incumbent ▸ lowers.improving

/-- Handing a store over at the last node sets the incumbent to the value of the bound there. -/
theorem lowers_acceptAt [Reporter ρ] (searchable : t.Searchable bound declarations)
    (running : Running t bound declarations st)
    (stable : st.store.domains.Stable st.store.rules)
    (improves : st.store.domains.Improves bound st.context.incumbent?) {id : Nat}
    {node : SearchNode} (here : t.node? id = some node) (last : node.children.head? = none) :
    Lowers t bound st [.accept id st] (st.acceptAt id node).2 ∧
      Running t bound declarations (st.acceptAt id node).2 := by
  have inside : id < t.size := (Array.getElem?_eq_some_iff.1 here).1
  have final : id + 1 = t.size := by
    have children := searchable.children id node here
    rw [last] at children
    split at children
    · cases children
    · omega
  obtain ⟨store, progress, -⟩ := setIncumbent_keeps (st.handed id) node
  obtain ⟨objective, incumbent⟩ :=
    incumbent_setIncumbent (st.handed id) (searchable.bounds id node here)
      (searchable.optimizing id node here final) running.objective
  have lowers : Lowers t bound st [.accept id st] (st.acceptAt id node).2 :=
    { store := store
      incumbent := incumbent
      sets := by
        intro step member
        obtain rfl := List.mem_singleton.1 member
        simp only [SearchStep.incumbent?, SearchStep.accepted?, Option.bind_some, here,
          searchable.optimizing id node here final, searchable.bounds id node here]
        cases bound <;> rfl
      leaf := by
        intro u member
        obtain rfl := List.mem_singleton.1 member
        exact ⟨.refl running.formed, stable⟩
      improving := ⟨improves, trivial⟩ }
  refine ⟨lowers, store ▸ running.declared, store ▸ running.formed,
    progress ▸ (quiet_handed t st id).orders running.orders,
    fun some => objective.trans (running.objective some), ?_⟩
  rw [lowers.incumbent]
  refine running.improvable.advanceAll fun u member => ?_
  obtain rfl := List.mem_singleton.1 member
  exact ⟨running.formed, running.declared⟩

/-- What a task needs in order to be done: before a frame, everything is propagated and the
incumbent has been improved on. Trials see to that themselves. -/
def Enterable (bound : Option VarId) (st : SearchState ρ) : SearchTask → Prop
  | .label .. => st.store.domains.Stable st.store.rules ∧
      st.store.domains.Improves bound st.context.incumbent?
  | .trials .. => True

/-- In a tree that can be searched a course sets lower and lower incumbents, one for each store
with a value of the bound. -/
theorem lowers_of_course [Reporter ρ] (searchable : t.Searchable bound declarations)
    {frames : Nat} {task : SearchTask} {outcome : Flow × SearchState ρ}
    (course : t.Course frames task st steps outcome) (running : Running t bound declarations st)
    (enterable : Enterable bound st task) :
    Lowers t bound st steps outcome.2 ∧ Running t bound declarations outcome.2 := by
  -- Every case puts the lists of its parts together; only `solved` sets an incumbent, and only
  -- `returned` has two parts, where the first one has put the store back.
  have idle {st st' : SearchState ρ} (running : Running t bound declarations st)
      (quiet : Quiet t st st') : Lowers t bound st [] st' ∧ Running t bound declarations st' :=
    ⟨.of_quiet quiet, running.of_quiet quiet⟩
  induction course with
  | spent => exact idle running (.refl t _)
  | missing => exact idle running (.refl t _)
  | solved here _ last =>
    exact lowers_acceptAt searchable running enterable.1 enterable.2 here last
  | @descended _ _ child _ _ st st' _ _ flow here _ _ _ ih =>
    have start := quiet_setState t st child .labeling
    have finish := quiet_setState t st' child (if flow = .timedOut then .timedOut else .exhausted)
    obtain ⟨lowers, running'⟩ := ih (running.of_quiet start) enterable
    exact ⟨lowers.between start finish, running'.of_quiet finish⟩
  | @branched _ id _ _ st _ st₂ _ _ _ _ flow here _ listed _ ih =>
    have start := quiet_of_listed t listed
    have finish := quiet_ite_backtrack t st₂ id st.accepted (flow = .proceed)
    obtain ⟨lowers, running'⟩ := ih (running.of_quiet start) trivial
    exact ⟨lowers.between start finish, running'.of_quiet finish⟩
  | emptied => exact idle running (.refl t _)
  | late here _ expired =>
    have quiet := (quiet_of_expired t expired).trans (quiet_timeOut t _)
    obtain ⟨lowers, running'⟩ := idle running quiet
    exact ⟨lowers.look _ _, running'⟩
  | pruned here _ inTime _ =>
    obtain ⟨lowers, running'⟩ := idle running (quiet_of_expired t inTime)
    exact ⟨lowers.look _ _, running'⟩
  | failed here _ inTime _ fails _ ih =>
    have start := quiet_of_expired t inTime
    have quiet := start.trans (quiet_decide (running.of_quiet start).formed fails t)
    obtain ⟨lowers, running'⟩ := ih (running.of_quiet quiet) trivial
    exact ⟨((lowers.between quiet (.refl t _)).decide _ _).look _ _, running'⟩
  | returned here _ inTime _ enters _ _ ihBelow ihLater =>
    rw [searchable.bounds _ _ here] at enters
    have start := quiet_of_expired t inTime
    have running₁ := running.of_quiet start
    have entered := entered_decide running₁.formed enters t
    obtain ⟨running₂, enterable₂⟩ := entered.ready running₁
    obtain ⟨lowers₃, running₃⟩ := ihBelow running₂ enterable₂
    have lowers := lowers₃.popLevel entered.descends entered.back entered.incumbent
    obtain ⟨lowers', running'⟩ := ihLater (running₃.popLevel running₁ lowers.store) trivial
    exact ⟨(((lowers.between start (.refl t _)).append lowers').decide _ _).look _ _, running'⟩
  | ended here _ inTime _ enters _ _ ih =>
    rw [searchable.bounds _ _ here] at enters
    have start := quiet_of_expired t inTime
    have running₁ := running.of_quiet start
    have entered := entered_decide running₁.formed enters t
    obtain ⟨running₂, enterable₂⟩ := entered.ready running₁
    obtain ⟨lowers₃, running₃⟩ := ih running₂ enterable₂
    have lowers := lowers₃.popLevel entered.descends entered.back entered.incumbent
    exact ⟨((lowers.between start (.refl t _)).decide _ _).look _ _,
      running₃.popLevel running₁ lowers.store⟩

/-- In a tree that can be searched a run sets lower and lower incumbents. -/
theorem lowers_of_follows [Reporter ρ] (searchable : t.Searchable bound declarations)
    (running : Running t bound declarations st)
    (improves : st.store.domains.Improves bound st.context.incumbent?)
    (follows : t.Follows st steps) : Lowers t bound st steps (t.run st).2 := by
  have incumbent := incumbent_started t st
  have back := popLevel_started running.formed t
  cases follows with
  | empty none =>
    rw [run_eq_of_empty (SearchTree.root?_eq_none_iff.1 none)]
    exact .of_quiet (.refl t st)
  | @inconsistent root found fails =>
    rw [SearchTree.run_of_inconsistent found fails]
    exact ⟨back, incumbent, by simp, by simp, trivial⟩
  | @searched root _ outcome found succeeds course =>
    obtain ⟨flow, st'⟩ := outcome
    rw [course.run_eq found succeeds]
    obtain ⟨descends, stable⟩ := descends_started running.formed succeeds t
    have start := quiet_setState t (started t st) root .labeling
    have finish := quiet_setState t st' root (if flow = .timedOut then .timedOut else .exhausted)
    obtain ⟨lowers, -⟩ := lowers_of_course searchable course
      ((running_started running).of_quiet start)
      ⟨stable, incumbent.symm ▸ improves.of_within descends.within⟩
    exact (lowers.between start finish).popLevel descends back incumbent

namespace Lowers

variable (lowers : Lowers t bound st steps st')
include lowers

theorem canonical : ∀ u ∈ SearchStep.accepted steps, u.domains.Canonical :=
  fun u member => (lowers.leaf u member).1.formed.canonical

/-- The incumbents that some of the steps set are the bounds of the stores that they hand over. -/
theorem incumbents_eq (part : first ⊆ steps) :
    SearchStep.incumbents t first =
      (SearchStep.accepted first).filterMap (boundValue? · bound) := by
  rw [SearchStep.accepted, List.filterMap_filterMap]
  exact List.filterMap_congr fun step member => lowers.sets step (part member)

/-- The incumbents are strictly decreasing. -/
theorem pairwise_incumbents : (SearchStep.incumbents t steps).Pairwise (· > ·) := by
  rw [lowers.incumbents_eq (List.Subset.refl steps), List.pairwise_filterMap]
  have pairwise := (lowers.improving.pairwise lowers.canonical).1
  exact pairwise.imp fun apart first reached second reached' =>
    apart first second reached reached'

/-- The last incumbent that is set stays. -/
theorem incumbent_eq (fresh : st.context.incumbent? = none) :
    st'.context.incumbent? = (SearchStep.incumbents t steps).getLast? := by
  rw [lowers.incumbent, Store.advanceAll_eq_getLast?,
    lowers.incumbents_eq (List.Subset.refl steps), fresh, Option.or_none]

/-- The costs that are decided have strictly decreasing ranks. -/
theorem pairwise_costs {s : Store} {cost : VarId} {var : VarId} {rank : Int → Int}
    (bounded : bound = some var) (ranks : s.Ranks cost st.store var rank) :
    ((SearchStep.accepted steps).filterMap fun u => Assignment.int? u.value? cost).Pairwise
      fun earlier later => rank later < rank earlier := by
  subst bounded
  have reached (u : Store) (member : u ∈ SearchStep.accepted steps) (value : Int)
      (given : Assignment.int? u.value? cost = some value) :
      boundValue? u (some var) = some (rank value) := by
    obtain ⟨descends, stable⟩ := lowers.leaf u member
    exact ranks.reached u descends.formed stable value (descends.formed.int?_eq_some_iff.1 given)
  rw [List.pairwise_filterMap]
  refine (lowers.improving.pairwise lowers.canonical).1.imp_of_mem ?_
  intro u w first second apart earlier given later given'
  exact apart _ _ (reached u first earlier given) (reached w second later given')

/-- No store is handed over after an incumbent that is the least value of the range. -/
theorem accepted_eq_nil (parts : steps = first ++ second)
    (least : Signed64.least ∈ SearchStep.incumbents t first) :
    SearchStep.accepted second = [] := by
  subst parts
  rw [lowers.incumbents_eq (List.subset_append_left first second), List.mem_filterMap] at least
  obtain ⟨u, member, reached⟩ := least
  have apart := (lowers.improving.pairwise lowers.canonical).1
  rw [SearchStep.accepted_append, List.pairwise_append] at apart
  refine List.eq_nil_iff_forall_not_mem.2 fun w later => ?_
  obtain ⟨left, -⟩ := lowers.leaf u (by simp [member])
  obtain ⟨right, -⟩ := lowers.leaf w (by simp [later])
  obtain ⟨value, reached'⟩ := left.exists_boundValue? right reached
  have less := apart.2.2 u member w later _ value reached reached'
  obtain ⟨var, -, holds⟩ := Store.holds_of_boundValue? right.formed.canonical reached'
  exact absurd (right.formed.sound.inRange var value holds).1 (not_le_of_gt less)

end Lowers

end SearchState

namespace SearchSpec

variable {ρ : Type} [Reporter ρ] {spec : SearchSpec} {names : Names} {s : Store}
  {context : Context ρ} {t : SearchTree} {cost : VarId}

/-- A run for the least or greatest cost sets strictly decreasing incumbents, and reports solutions
whose known costs are strictly better and better. Nothing is accepted after an incumbent that
is the least value of the range. -/
theorem improves_strictly_of_build (reached : s.Reachable)
    (goal : spec.goal.isOptimization = true) (named : spec.cost = some cost)
    (outcome : (spec.build names s context).outcome = .ok (.tree t))
    (recorded : context.listener.cost = some cost) :
    ∃ (course : List (SearchStep ρ)) (solutions : List Solution),
      t.Follows ((spec.build names s context).start t) course ∧
      (SearchStep.incumbents t course).Pairwise (· > ·) ∧
      (t.run ((spec.build names s context).start t)).2.context.incumbent? =
        (SearchStep.incumbents t course).getLast? ∧
      context.listener.Reports
        (t.run ((spec.build names s context).start t)).2.context.listener solutions ∧
      solutions.map Solution.values = (SearchStep.accepted course).map Store.decidedValues ∧
      (spec.goal = .minimize → (solutions.filterMap Solution.cost).Pairwise (· > ·)) ∧
      (spec.goal = .maximize → (solutions.filterMap Solution.cost).Pairwise (· < ·)) ∧
      ∀ earlier later, course = earlier ++ later →
        Signed64.least ∈ SearchStep.incumbents t earlier → SearchStep.accepted later = [] := by
  obtain ⟨objective, wired, ready⟩ := exists_ready_of_build reached.formed outcome
  obtain ⟨o, rfl⟩ := exists_objective_of_wireCost goal wired
  obtain ⟨rank, ranks, prefers⟩ := exists_ranks_of_wireCost reached.formed named wired
  have fresh : ((spec.build names s context).start t).context.incumbent? = none := by
    show (spec.build names s context).context.objective.bind _ = none
    rw [ready.objective]
    exact (wired_of_wireCost reached.formed wired).fresh o rfl
  obtain ⟨course, follows⟩ := t.exists_follows ((spec.build names s context).start t)
  have lowers := SearchState.lowers_of_follows ready.searchable ready.running
    (fun _ best _ some => by cases fresh.symm.trans some) follows
  have reports := context.listener.reports_acceptAll (SearchStep.accepted course)
  have listener := follows.listener
  rw [show ((spec.build names s context).start t).context.listener = context.listener from
    ready.listener] at listener
  rw [← listener] at reports
  have ranked := lowers.pairwise_costs rfl ranks
  have costs := context.listener.costs_solutions (SearchStep.accepted course)
  rw [recorded] at costs
  refine ⟨course, _, follows, lowers.pairwise_incumbents, lowers.incumbent_eq fresh, reports,
    Listener.values_solutions _ _, ?_, ?_, fun earlier later => lowers.accepted_eq_nil⟩
  · intro minimize
    rw [minimize] at prefers
    rw [costs]
    exact ranked.imp fun less =>
      lt_of_le_of_ne (prefers _ _ less.le) (ne_of_apply_ne rank less.ne)
  · intro maximize
    rw [maximize] at prefers
    rw [costs]
    exact ranked.imp fun less =>
      lt_of_le_of_ne (prefers _ _ less.le) (ne_of_apply_ne rank less.ne')

/-- Two incumbents down to the least value of the range, although two more stores are tried. -/
theorem improves_strictly_of_build_least :
    ∃ (s : Store) (spec : SearchSpec) (context : Context NoReporter) (t : SearchTree)
      (course : List (SearchStep NoReporter)) (solutions : List Solution), s.Reachable ∧
      spec.goal.isOptimization = true ∧ spec.cost = some ⟨0⟩ ∧
      (spec.build Names.empty s context).outcome = .ok (.tree t) ∧
      context.listener.cost = some ⟨0⟩ ∧
      t.Follows ((spec.build Names.empty s context).start t) course ∧
      (SearchStep.incumbents t course).Pairwise (· > ·) ∧
      (SearchStep.incumbents t course).getLast? = some Signed64.least ∧
      solutions.length = 2 ∧ (solutions.filterMap Solution.cost).Pairwise (· > ·) ∧
      ∀ earlier later, course = earlier ++ later →
        Signed64.least ∈ SearchStep.incumbents t earlier → SearchStep.accepted later = [] := by
  let s := StoreOperation.applyAll Store.empty
    [.declareInt "x" Signed64.least (Signed64.least + 1), .declareBool "y"]
  let spec : SearchSpec := ⟨.minimize, some ⟨0⟩,
    some (.leaf .int ⟨[⟨0⟩, ⟨1⟩], some .inputOrder, some .max, .complete⟩)⟩
  let context : Context NoReporter :=
    Context.ofListener { (Listener.all none : Listener NoReporter) with cost := some ⟨0⟩ }
  let t := SearchTree.ofStages (some ⟨0⟩)
    [⟨⟨.int, [⟨0⟩, ⟨1⟩], .inputOrder, .max, .complete, .descending⟩, .explicit⟩]
  have reached : s.Reachable := by
    apply Store.Reachable.empty.applyAll
    simp [StoreOperation.InRange, Signed64.InRange, Signed64.least, Signed64.greatest]
  have outcome : (spec.build Names.empty s context).outcome = .ok (.tree t) := rfl
  obtain ⟨course, solutions, follows, pairwise, last, reports, -, minimize, -, ends⟩ :=
    improves_strictly_of_build reached rfl rfl outcome rfl
  let st := (spec.build Names.empty s context).start t
  have incumbent : (t.run st).2.context.incumbent? = some Signed64.least := by decide +kernel
  have count : (t.run st).2.context.listener.count = 2 := by decide +kernel
  have length := reports.count.symm.trans count
  rw [show context.listener.count = 0 from rfl, Nat.zero_add] at length
  exact ⟨s, spec, context, t, course, solutions, reached, rfl, rfl, rfl, rfl, follows, pairwise,
    last.symm.trans incumbent, length, minimize rfl, ends⟩

end SearchSpec

end StagedSearch
