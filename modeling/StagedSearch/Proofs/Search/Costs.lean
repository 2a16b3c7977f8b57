/-
# Which costs are checked

An optimization needs a cost that is a number. Resolving a goal makes sure of it, and so does
wiring a maximization, which has to negate the cost. Wiring a minimization takes the cost as it is:
a variable that is a set, or that does not exist, passes. Then no store that the search comes to
has a value for the bound, so the search sets no incumbent, goes on as if there were no goal, and
still ends as an exhausted optimization.

Whether solutions set incumbents is settled before the run. If the cost has a value in the store
from which the tree is built, then every solution sets one, and otherwise none does.
-/

import StagedSearch.Proofs.Search.Incumbents
import StagedSearch.Proofs.Tree.Objective

namespace StagedSearch

/-- A variable is an integer or a boolean of the store. -/
def Store.IsNumeric (s : Store) (var : VarId) : Prop :=
  ∃ v, s.declaration? var = some v ∧ v.kind ≠ .set

/-- What building asks of the cost of an optimization, and what a run makes of it. -/
structure SearchSpec.ChecksCost {ρ : Type} [Reporter ρ] (spec : SearchSpec) (names : Names)
    (s : Store) (context : Context ρ) : Prop where
  /-- Where there is something to decide, a tree is built for every cost that is minimized, and
  for every number that is maximized, has a value and can be negated. -/
  builds : ∀ stages seeds, spec.stages names s context.seeds = .ok stages seeds → stages ≠ [] →
    ((∃ t, (spec.build names s context).outcome = .ok (.tree t)) ↔
      ∃ cost, spec.cost = some cost ∧
        (spec.goal = .maximize → s.IsNumeric cost ∧ ¬ spec.RefusesCost s cost))
  /-- A missing cost is refused whatever the goal is. -/
  missing : ∀ stages seeds, spec.stages names s context.seeds = .ok stages seeds → stages ≠ [] →
    spec.cost = none → (spec.build names s context).outcome = .error (.malformedCost .noVariable)
  /-- A cost that is not a number is refused if it is to be maximized. -/
  refuses : ∀ stages seeds cost, spec.stages names s context.seeds = .ok stages seeds →
    stages ≠ [] → spec.goal = .maximize → spec.cost = some cost → ¬ s.IsNumeric cost →
    ∃ e, (spec.build names s context).outcome = .error (.store e)
  /-- A goal that was resolved has a number as its cost. -/
  resolved : ∀ item table, SearchSpec.ofItem item table s = .ok spec →
    ∃ cost, spec.cost = some cost ∧ s.IsNumeric cost
  /-- Either every solution sets an incumbent or none does. -/
  incumbents : ∀ t, (spec.build names s context).outcome = .ok (.tree t) →
    ∃ cost, spec.cost = some cost ∧
      ∀ steps, t.Follows ((spec.build names s context).start t) steps → ∀ step ∈ steps,
        ∀ u, step.accepted? = some u →
          ((∃ value, step.incumbent? t = some value) ↔ ∃ value, s.domains.Holds cost value)

namespace SearchSpec

variable {spec : SearchSpec} {s s' : Store} {cost : VarId}

/-! ## Wiring -/

theorem wireMaximum_of_not_declared (unknown : s.declaration? cost = none) :
    wireMaximum cost s = .error (.store (.unknownVariable cost)) := by
  simp only [wireMaximum, Store.intDomain, Store.declaration, unknown, SolveError.ofStore, bind,
    Except.bind]

theorem wireMaximum_of_set (formed : s.Formed) {v : Variable}
    (declared : s.declaration? cost = some v) (set : v.kind = .set) :
    wireMaximum cost s = .error (.store (.kindMismatch cost .int .set)) := by
  obtain ⟨d, here, suits⟩ := formed.exists_domain declared
  rw [set] at suits
  cases d with
  | int d => exact suits.elim
  | set d =>
    simp only [wireMaximum, Store.intDomain, Store.declaration, declared, Store.domain, here, set,
      SolveError.ofStore, bind, Except.bind]
    rfl

/-- A maximum that is not a number is refused by the store. -/
theorem exists_wireMaximum_eq_store (formed : s.Formed) (other : ¬ s.IsNumeric cost) :
    ∃ e, wireMaximum cost s = .error (.store e) := by
  cases declared : s.declaration? cost with
  | none => exact ⟨_, wireMaximum_of_not_declared declared⟩
  | some v =>
    have set : v.kind = .set := not_not.1 fun numeric => other ⟨v, declared, numeric⟩
    exact ⟨_, wireMaximum_of_set formed declared set⟩

/-- When the cost of an optimization is wired. -/
theorem exists_wireCost_eq_ok_iff (formed : s.Formed) (goal : spec.goal.isOptimization = true) :
    (∃ made, spec.wireCost s = .ok made) ↔
      ∃ cost, spec.cost = some cost ∧
        (spec.goal = .maximize → s.IsNumeric cost ∧ ¬ spec.RefusesCost s cost) := by
  constructor
  · rintro ⟨⟨objective, s'⟩, wired⟩
    rcases wireCost_cases wired with
      ⟨satisfy, -⟩ | ⟨cost, minimize, named, -⟩ |
      ⟨cost, v, d, low, high, -, named, declared, here, -⟩
    · rw [satisfy] at goal
      cases goal
    · refine ⟨cost, named, fun maximize => ?_⟩
      cases minimize.symm.trans maximize
    · obtain ⟨w, declared', numeric⟩ := formed.exists_numeric here
      refine ⟨cost, named, fun _ => ⟨⟨w, declared', numeric⟩, fun refuses => ?_⟩⟩
      obtain ⟨fault, failed⟩ := exists_wireCost_eq_error formed named declared' numeric refuses
      cases wired.symm.trans failed
  · rintro ⟨cost, named, checked⟩
    cases kind : spec.goal with
    | satisfy =>
      rw [kind] at goal
      cases goal
    | minimize => exact ⟨_, wireCost_minimize kind named⟩
    | maximize =>
      obtain ⟨⟨v, declared, numeric⟩, spares⟩ := checked kind
      exact exists_wireCost_eq_ok formed named declared numeric spares

theorem wireCost_of_missing (goal : spec.goal.isOptimization = true) (missing : spec.cost = none) :
    spec.wireCost s = .error (.malformedCost .noVariable) := by
  unfold wireCost
  rw [missing]
  cases kind : spec.goal with
  | satisfy =>
    rw [kind] at goal
    cases goal
  | minimize | maximize => rfl

/-- The bound has a value after wiring exactly if the cost had one before. -/
theorem holds_bound_iff_of_wireCost (formed : s.Formed) {objective : Objective}
    (named : spec.cost = some cost) (wired : spec.wireCost s = .ok (some objective, s')) :
    (∃ value, s'.domains.Holds objective.bound value) ↔ ∃ value, s.domains.Holds cost value := by
  rcases wireCost_cases wired with
    ⟨-, none, -⟩ | ⟨cost', -, named', same, rfl⟩ |
    ⟨cost', v, d, low, high, -, named', declared, here, least, greatest, -, -, same, rfl⟩
  · cases none
  · cases same
    obtain rfl := Option.some.inj (named.symm.trans named')
    exact Iff.rfl
  · cases same
    obtain rfl := Option.some.inj (named.symm.trans named')
    -- Both sides hold: the cost has its bounds as values, and the companion their negations.
    have canonical := formed.canonical.int? here
    obtain ⟨lowest, below⟩ := canonical.min?_eq_some_iff.1 least
    obtain ⟨highest, -⟩ := canonical.max?_eq_some_iff.1 greatest
    have own : (s.withNegated cost v.name low high).domains.get? ⟨s.size⟩ =
        some (.int (IntDomain.interval (-high) (-low))) := by
      show (s.declare ("-" ++ v.name) .int _).2.domains.get? ⟨s.size⟩ = _
      rw [Store.get?_declare formed.sizes, if_pos rfl]
    refine iff_of_true ⟨-low, _, DomainTable.int?_eq_some_iff.2 own, ?_⟩ ⟨low, d, here, lowest⟩
    have ordered := below high highest
    exact IntDomain.mem_interval.2 ⟨by omega, le_rfl⟩

/-! ## Resolving -/

theorem isNumeric_of_resolve {e : CostExpression} {names : Names}
    (resolved : e.resolve names s = .ok cost) : s.IsNumeric cost := by
  unfold CostExpression.resolve at resolved
  split at resolved
  · cases resolved
  · cases resolved
  · rename_i var _
    split at resolved
    · cases resolved
    · cases resolved
    · rename_i v numeric declared
      cases resolved
      refine ⟨v, Store.declaration_eq_ok.1 declared, fun set => ?_⟩
      exact numeric v.name (congrArg (Variable.mk v.name) set)

/-- The cost of an optimization that was resolved is a number. -/
theorem exists_numeric_of_ofItem {item : SolveItem} {table : Names}
    (resolved : ofItem item table s = .ok spec) (goal : spec.goal.isOptimization = true) :
    ∃ cost, spec.cost = some cost ∧ s.IsNumeric cost := by
  obtain ⟨directive, -, resolved⟩ := except_bind_eq_ok.1 resolved
  cases kind : item.goal with
  | satisfy =>
    rw [kind] at resolved
    cases resolved
    cases goal
  | minimize e | maximize e =>
    rw [kind] at resolved
    obtain ⟨cost, found, resolved⟩ := except_bind_eq_ok.1 resolved
    cases resolved
    exact ⟨cost, rfl, isNumeric_of_resolve found⟩

/-! ## Building and running -/

variable {ρ : Type} [Reporter ρ] {names : Names} {context : Context ρ} {t : SearchTree}

/-- A run sets an incumbent with a solution exactly if the cost has a value in the store from which
the tree was built. -/
theorem exists_incumbent?_iff_of_build (formed : s.Formed)
    (goal : spec.goal.isOptimization = true)
    (outcome : (spec.build names s context).outcome = .ok (.tree t))
    (named : spec.cost = some cost) {steps : List (SearchStep ρ)}
    (follows : t.Follows ((spec.build names s context).start t) steps) {step : SearchStep ρ}
    (member : step ∈ steps) {u : Store} (accepted : step.accepted? = some u) :
    (∃ value, step.incumbent? t = some value) ↔ ∃ value, s.domains.Holds cost value := by
  obtain ⟨objective, wired, ready⟩ := exists_ready_of_build formed outcome
  obtain ⟨o, rfl⟩ := exists_objective_of_wireCost goal wired
  have fresh : ((spec.build names s context).start t).context.incumbent? = none := by
    show (spec.build names s context).context.objective.bind _ = none
    rw [ready.objective]
    exact (wired_of_wireCost formed wired).fresh o rfl
  have lowers := SearchState.lowers_of_follows ready.searchable ready.running
    (fun _ best _ some => by cases fresh.symm.trans some) follows
  have leaf := (lowers.leaf u (List.mem_filterMap.2 ⟨step, member, accepted⟩)).1
  rw [lowers.sets step member, accepted]
  exact leaf.exists_boundValue?_iff.trans (holds_bound_iff_of_wireCost formed named wired)

/-- Building looks only at a cost that is to be maximized. Whatever the cost is, the tree that is
built sets incumbents with all solutions or with none. -/
theorem checks_cost_of_reachable (reached : s.Reachable)
    (goal : spec.goal.isOptimization = true) (names : Names) (context : Context ρ) :
    spec.ChecksCost names s context := by
  have formed := reached.formed
  constructor
  · intro stages seeds compiled nonempty
    obtain ⟨fails, succeeds⟩ := outcome_build_of_stages compiled nonempty
    rw [← exists_wireCost_eq_ok_iff formed goal]
    constructor
    · rintro ⟨t, outcome⟩
      obtain ⟨_, wired, -⟩ := exists_ready_of_build formed outcome
      exact ⟨_, wired⟩
    · rintro ⟨made, wired⟩
      exact succeeds made wired
  · intro stages seeds compiled nonempty missing
    exact (outcome_build_of_stages compiled nonempty).1 _ (wireCost_of_missing goal missing)
  · intro stages seeds cost compiled nonempty maximize named other
    obtain ⟨e, failed⟩ := exists_wireMaximum_eq_store formed other
    refine ⟨e, (outcome_build_of_stages compiled nonempty).1 _ ?_⟩
    rw [wireCost_maximize maximize named, failed]
    rfl
  · intro item table resolved
    exact exists_numeric_of_ofItem resolved goal
  · intro t outcome
    obtain ⟨_, wired, -⟩ := exists_ready_of_build formed outcome
    obtain ⟨cost, named, -⟩ := (exists_wireCost_eq_ok_iff formed goal).1 ⟨_, wired⟩
    refine ⟨cost, named, fun steps follows step member u accepted => ?_⟩
    exact exists_incumbent?_iff_of_build formed goal outcome named follows member accepted

/-- A set is refused where it is to be maximized. Where it is to be minimized a tree is built, and
no run over it sets an incumbent. -/
theorem checks_cost_of_reachable_set :
    let s := StoreOperation.applyAll .empty [.declareSet "s" [] [1, 2], .declareInt "x" 0 1]
    let context : Context NoReporter := Context.ofListener (Listener.all none)
    let leaf := SearchDirective.leaf .int ⟨[⟨1⟩], some .inputOrder, some .min, .complete⟩
    let lowest : SearchSpec := ⟨.minimize, some ⟨0⟩, some leaf⟩
    let highest : SearchSpec := ⟨.maximize, some ⟨0⟩, some leaf⟩
    s.Reachable ∧ (∃ e, (highest.build Names.empty s context).outcome = .error (.store e)) ∧
      ∃ t, (lowest.build Names.empty s context).outcome = .ok (.tree t) ∧
        ∀ steps, t.Follows ((lowest.build Names.empty s context).start t) steps →
          ∀ step ∈ steps, ∀ u, step.accepted? = some u →
            ¬ ∃ value, step.incumbent? t = some value := by
  intro s context leaf lowest highest
  have reached : s.Reachable := Store.Reachable.empty.applyAll (by decide)
  have set : ¬ s.IsNumeric ⟨0⟩ := by
    rintro ⟨_, ⟨⟩, numeric⟩
    exact numeric rfl
  let stages : List Stage :=
    [⟨⟨.int, [⟨1⟩], .inputOrder, .min, .complete, .ascending⟩, .explicit⟩]
  refine ⟨reached, ?_, ?_⟩
  · have checks : highest.ChecksCost Names.empty s context :=
      checks_cost_of_reachable reached rfl Names.empty context
    exact checks.refuses stages context.seeds ⟨0⟩ rfl (List.cons_ne_nil _ _) rfl rfl set
  · have checks : lowest.ChecksCost Names.empty s context :=
      checks_cost_of_reachable reached rfl Names.empty context
    obtain ⟨t, outcome⟩ := (checks.builds stages context.seeds rfl (List.cons_ne_nil _ _)).2
      ⟨⟨0⟩, rfl, by rintro ⟨⟩⟩
    obtain ⟨cost, named, incumbents⟩ := checks.incumbents t outcome
    obtain rfl := Option.some.inj named
    refine ⟨t, outcome, fun steps follows step member u accepted some => ?_⟩
    obtain ⟨value, d, ⟨⟩, -⟩ := (incumbents steps follows step member u accepted).1 some

/-- A tree is built for minimizing a set, which is refused for maximizing. The run accepts two
solutions, leaves nothing out, and sets no incumbent. -/
theorem exists_tree_of_set_cost :
    ∃ (s : Store) (spec : SearchSpec) (names : Names) (context : Context NoReporter)
      (t : SearchTree), s.Reachable ∧ spec.goal = .minimize ∧ spec.cost = some ⟨0⟩ ∧
      ¬ s.IsNumeric ⟨0⟩ ∧ (spec.build names s context).outcome = .ok (.tree t) ∧
      ({ spec with goal := .maximize }.build names s context).outcome =
        .error (.store (.kindMismatch ⟨0⟩ .int .set)) ∧
      t.isComplete = true ∧
      (t.run ((spec.build names s context).start t)).2.context.listener.count = 2 ∧
      (t.run ((spec.build names s context).start t)).2.context.incumbent? = none := by
  let s := StoreOperation.applyAll .empty [.declareSet "s" [] [1, 2], .declareInt "x" 0 1]
  let t := SearchTree.ofStages (some ⟨0⟩)
    [⟨⟨.int, [⟨1⟩], .inputOrder, .min, .complete, .ascending⟩, .completion⟩]
  refine ⟨s, ⟨.minimize, some ⟨0⟩, none⟩, Names.empty.addDecision ⟨1⟩,
    Context.ofListener (Listener.all none), t, Store.Reachable.empty.applyAll (by decide), rfl, rfl,
    ?_, by decide +kernel, by decide +kernel, by decide +kernel, by decide +kernel,
    by decide +kernel⟩
  rintro ⟨_, ⟨⟩, numeric⟩
  exact numeric rfl

end SearchSpec

end StagedSearch
