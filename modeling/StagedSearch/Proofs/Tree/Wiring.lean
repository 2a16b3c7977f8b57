/-
# Wiring the cost, and building

What the three goals make of a store. A satisfaction leaves it as it is, and so does a
minimization, whose bound is the cost. A maximization declares one more variable, which ranges
over the negated values of the cost and is constrained to the negated cost.

Building then gives a tree that the engine can search on that store, in a state in which a run
can begin.
-/

import StagedSearch.Proofs.Tree.Stages

namespace StagedSearch

namespace Store

variable {s : Store} {cost : VarId} {name : String} {low high : Int}

/-- The store with one more variable, which is the negated cost. The bounds are those of the
cost. -/
def withNegated (s : Store) (cost : VarId) (name : String) (low high : Int) : Store :=
  (s.addInt ("-" ++ name) (-high) (-low)).2.addConstraint (.negation ⟨s.size⟩ cost)

theorem Formed.withNegated (formed : s.Formed) (declared : cost.index < s.size)
    (least : Signed64.InRange (-high)) (greatest : Signed64.InRange (-low)) :
    (s.withNegated cost name low high).Formed := by
  have wider : (s.addInt ("-" ++ name) (-high) (-low)).2.Formed := by
    refine formed.declare _ (IntDomain.canonical_interval _ _) fun value inside => ?_
    have := IntDomain.mem_interval.1 inside
    unfold Signed64.InRange at *
    omega
  refine wider.addConstraint fun var member => ?_
  have size : (s.addInt ("-" ++ name) (-high) (-low)).2.size = s.size + 1 := Array.size_push _
  simp only [Constraint.scope, List.mem_cons, List.not_mem_nil, or_false] at member
  rw [size]
  rcases member with rfl | rfl
  · exact Nat.lt_succ_self _
  · omega

/-- Declared variables stay declared. -/
theorem declaration?_withNegated {var : VarId} {v : Variable}
    (declared : s.declaration? var = some v) :
    (s.withNegated cost name low high).declaration? var = some v := by
  have inside := (Array.getElem?_eq_some_iff.1 declared).1
  show (s.declarations.push _)[var.index]? = some v
  rw [Array.getElem?_push, if_neg (by omega)]
  exact declared

theorem intDomain_eq_ok {var : VarId} {d : IntDomain} (found : s.intDomain var = .ok d) :
    s.domains.int? var = some d := by
  obtain ⟨v, -, found⟩ := except_bind_eq_ok.1 found
  obtain ⟨e, there, found⟩ := except_bind_eq_ok.1 found
  have here : s.domains.get? var = some e := by
    unfold Store.domain at there
    cases get : s.domains.get? var <;> simp_all
  cases e with
  | int e =>
    cases found
    exact DomainTable.int?_eq_some_iff.2 here
  | set e => cases found

/-- What wiring leaves to the search: a well-formed store in which everything declared before
is still there, and an objective without an incumbent. -/
structure Wired (s : Store) (objective : Option Objective) (s' : Store) : Prop where
  formed : s'.Formed
  keeps : ∀ var v, s.declaration? var = some v → s'.declaration? var = some v
  fresh : ∀ o, objective = some o → o.incumbent = none

end Store

namespace SearchSpec

variable {spec : SearchSpec} {s s' : Store} {cost : VarId} {objective : Option Objective}

theorem wireCost_satisfy (goal : spec.goal = .satisfy) : spec.wireCost s = .ok (none, s) := by
  unfold wireCost
  rw [goal]

theorem wireCost_minimize (goal : spec.goal = .minimize) (named : spec.cost = some cost) :
    spec.wireCost s = .ok (some ⟨cost, cost, none⟩, s) := by
  unfold wireCost
  rw [goal, named]

/-- A maximization that is wired has a cost with values, all of which can be negated. -/
theorem exists_of_wireCost_maximize (goal : spec.goal = .maximize) (named : spec.cost = some cost)
    (wired : spec.wireCost s = .ok (objective, s')) :
    ∃ v d low high, s.declaration? cost = some v ∧ s.domains.int? cost = some d ∧
      d.min? = some low ∧ d.max? = some high ∧ Signed64.InRange (-high) ∧
      Signed64.InRange (-low) ∧ objective = some ⟨cost, ⟨s.size⟩, none⟩ ∧
      s' = s.withNegated cost v.name low high := by
  unfold wireCost at wired
  rw [goal, named] at wired
  simp only [Except.map] at wired
  split at wired
  · cases wired
  · rename_i found
    cases wired
    obtain ⟨d, domain, found⟩ := except_bind_eq_ok.1 found
    obtain ⟨v, declared, found⟩ := except_bind_eq_ok.1 found
    have declared := Store.declaration_eq_ok.1 (SolveError.ofStore_eq_ok.1 declared)
    have domain := Store.intDomain_eq_ok (SolveError.ofStore_eq_ok.1 domain)
    split at found
    · rename_i low high least greatest
      split at found
      · rename_i negatedHigh negatedLow fits fits'
        cases found
        obtain ⟨first, rfl⟩ := Signed64.checked_eq_some_iff.1 fits
        obtain ⟨second, rfl⟩ := Signed64.checked_eq_some_iff.1 fits'
        exact ⟨v, d, low, high, declared, domain, least, greatest, first, second, rfl, rfl⟩
      · cases found
    · cases found

/-- An optimization that is wired has a cost. -/
theorem exists_cost_of_wireCost (goal : spec.goal ≠ .satisfy)
    (wired : spec.wireCost s = .ok (objective, s')) : ∃ cost, spec.cost = some cost := by
  cases named : spec.cost with
  | some cost => exact ⟨cost, rfl⟩
  | none =>
    unfold wireCost at wired
    rw [named] at wired
    cases kind : spec.goal with
    | satisfy => exact absurd kind goal
    | minimize => simp [kind] at wired
    | maximize => simp [kind] at wired

/-- What wiring makes of a store for each goal. -/
theorem wireCost_cases (wired : spec.wireCost s = .ok (objective, s')) :
    (spec.goal = .satisfy ∧ objective = none ∧ s' = s) ∨
      (∃ cost, spec.goal = .minimize ∧ spec.cost = some cost ∧
        objective = some ⟨cost, cost, none⟩ ∧ s' = s) ∨
      ∃ cost v d low high, spec.goal = .maximize ∧ spec.cost = some cost ∧
        s.declaration? cost = some v ∧ s.domains.int? cost = some d ∧ d.min? = some low ∧
        d.max? = some high ∧ Signed64.InRange (-high) ∧ Signed64.InRange (-low) ∧
        objective = some ⟨cost, ⟨s.size⟩, none⟩ ∧ s' = s.withNegated cost v.name low high := by
  cases goal : spec.goal with
  | satisfy =>
    rw [wireCost_satisfy goal] at wired
    cases wired
    exact .inl ⟨rfl, rfl, rfl⟩
  | minimize =>
    obtain ⟨cost, named⟩ := exists_cost_of_wireCost (by simp [goal]) wired
    rw [wireCost_minimize goal named] at wired
    cases wired
    exact .inr (.inl ⟨cost, rfl, named, rfl, rfl⟩)
  | maximize =>
    obtain ⟨cost, named⟩ := exists_cost_of_wireCost (by simp [goal]) wired
    obtain ⟨v, d, low, high, wired⟩ := exists_of_wireCost_maximize goal named wired
    exact .inr (.inr ⟨cost, v, d, low, high, rfl, named, wired⟩)

/-- An optimization that is wired has an objective. -/
theorem exists_objective_of_wireCost (goal : spec.goal.isOptimization = true)
    (wired : spec.wireCost s = .ok (objective, s')) : ∃ o, objective = some o := by
  rcases wireCost_cases wired with
    ⟨satisfy, -⟩ | ⟨_, -, -, same, -⟩ | ⟨_, _, _, _, _, -, -, -, -, -, -, -, -, same, -⟩
  · rw [satisfy] at goal
    cases goal
  · exact ⟨_, same⟩
  · exact ⟨_, same⟩

/-- Wiring, when it succeeds, leaves a store that can be searched. -/
theorem wired_of_wireCost (formed : s.Formed)
    (wired : spec.wireCost s = .ok (objective, s')) : s.Wired objective s' := by
  rcases wireCost_cases wired with
    ⟨-, rfl, rfl⟩ | ⟨cost, -, -, rfl, rfl⟩ |
    ⟨cost, v, d, low, high, -, -, declared, -, -, -, least, greatest, rfl, rfl⟩
  · exact ⟨formed, fun _ _ declared => declared, nofun⟩
  · refine ⟨formed, fun _ _ declared => declared, ?_⟩
    rintro o ⟨⟩
    rfl
  · have inside := (Array.getElem?_eq_some_iff.1 declared).1
    refine ⟨formed.withNegated inside least greatest,
      fun _ _ => Store.declaration?_withNegated, ?_⟩
    rintro o ⟨⟩
    rfl

end SearchSpec

/-! ## Building -/

/-- A tree that was built, with all that the engine relies on when a run begins. -/
structure Built.Ready {ρ : Type} (built : Built ρ) (t : SearchTree)
    (objective : Option Objective) (context : Context ρ) : Prop where
  nonempty : 0 < t.size
  searchable : t.Searchable (objective.map Objective.bound) built.store.declarations
  running : SearchState.Running t (objective.map Objective.bound) built.store.declarations
    ⟨Progress.ofTree t, built.store, built.context⟩
  listener : built.context.listener = context.listener
  timeLimit : built.context.timeLimit = context.timeLimit
  objective : built.context.objective = objective.or context.objective

namespace SearchSpec

variable {ρ : Type} [Reporter ρ] {spec : SearchSpec} {names : Names} {s : Store}
  {context : Context ρ} {t : SearchTree}

/-- The three ways in which building ends: it fails and leaves everything but the seeds, there is
nothing to decide, or the stages are chained into a tree. -/
theorem build_cases (spec : SearchSpec) (names : Names) (s : Store) (context : Context ρ) :
    (∃ e seeds, spec.build names s context = ⟨.error e, s, { context with seeds }⟩) ∨
      (∃ seeds, spec.stages names s context.seeds = .ok [] seeds ∧
        spec.build names s context = acceptTrivially s { context with seeds }) ∨
      ∃ stages seeds objective s' t, spec.stages names s context.seeds = .ok stages seeds ∧
        stages ≠ [] ∧ spec.wireCost s = .ok (objective, s') ∧
        t = SearchTree.ofStages (objective.map Objective.bound) stages ∧
        spec.build names s context =
          ⟨.ok (.tree t), s',
            { context with seeds, objective := objective.or context.objective }.note
              (.treeBuilt t.size t.vars.length t.isComplete)⟩ := by
  unfold build
  cases compiled : spec.stages names s context.seeds with
  | error e seeds => exact .inl ⟨e, seeds, rfl⟩
  | ok stages seeds =>
    dsimp only
    split
    · rename_i empty
      obtain rfl := List.isEmpty_iff.1 empty
      exact .inr (.inl ⟨seeds, rfl, rfl⟩)
    · rename_i nonempty
      unfold chain
      cases wired : spec.wireCost s with
      | error e => exact .inl ⟨e, seeds, rfl⟩
      | ok made =>
        exact .inr (.inr ⟨stages, seeds, made.1, made.2, _, rfl,
          fun empty => nonempty (List.isEmpty_iff.2 empty), rfl, rfl, rfl⟩)

/-- A tree that is built is the chain of the stages of the search, and it comes with a store on
which the cost is wired. -/
theorem exists_of_build (outcome : (spec.build names s context).outcome = .ok (.tree t)) :
    ∃ stages seeds objective, spec.stages names s context.seeds = .ok stages seeds ∧
      stages ≠ [] ∧ spec.wireCost s = .ok (objective, (spec.build names s context).store) ∧
      t = SearchTree.ofStages (objective.map Objective.bound) stages ∧
      (spec.build names s context).context.listener = context.listener ∧
      (spec.build names s context).context.timeLimit = context.timeLimit ∧
      (spec.build names s context).context.objective = objective.or context.objective := by
  rcases build_cases spec names s context with
    ⟨e, seeds, built⟩ | ⟨seeds, -, built⟩ |
    ⟨stages, seeds, objective, s', t', compiled, nonempty, wired, chained, built⟩
  · rw [built] at outcome
    cases outcome
  · rw [built] at outcome
    cases outcome
  · rw [built] at outcome ⊢
    cases outcome
    exact ⟨stages, seeds, objective, compiled, nonempty, wired, chained, rfl, rfl, rfl⟩

theorem size_pos_of_build (outcome : (spec.build names s context).outcome = .ok (.tree t)) :
    0 < t.size := by
  obtain ⟨stages, -, objective, -, nonempty, -, rfl, -⟩ := exists_of_build outcome
  rw [SearchTree.size_ofStages]
  exact List.length_pos_iff.2 nonempty

/-- Building reads no clock. -/
theorem deadlineFits_build :
    (spec.build names s context).context.DeadlineFits ↔ context.DeadlineFits := by
  simp only [Context.deadlineFits_iff]
  rcases build_cases spec names s context with
    ⟨e, seeds, built⟩ | ⟨seeds, -, built⟩ | ⟨_, seeds, _, _, _, -, -, -, -, built⟩
  · rw [built]
  · rw [built]
    rfl
  · rw [built]
    rfl

/-- Where there is nothing to decide there are no stages, and the listener has accepted the store. -/
theorem exists_of_build_trivial (outcome : (spec.build names s context).outcome = .ok .trivial) :
    ∃ seeds, spec.stages names s context.seeds = .ok [] seeds ∧
      (spec.build names s context).context.listener = (context.listener.accept s).2 := by
  rcases build_cases spec names s context with
    ⟨e, seeds, built⟩ | ⟨seeds, compiled, built⟩ | ⟨_, _, _, _, _, -, -, -, -, built⟩
  · rw [built] at outcome
    cases outcome
  · rw [built]
    exact ⟨seeds, compiled, rfl⟩
  · rw [built] at outcome
    cases outcome

/-- Where building fails, the store is as it was, and the context but for its seeds. -/
theorem exists_build_eq_of_error {e : SolveError}
    (failed : (spec.build names s context).outcome = .error e) :
    ∃ seeds, spec.build names s context = ⟨.error e, s, { context with seeds }⟩ := by
  rcases build_cases spec names s context with
    ⟨e', seeds, built⟩ | ⟨seeds, -, built⟩ | ⟨_, _, _, _, _, -, -, -, -, built⟩ <;>
    rw [built] at failed <;> cases failed
  exact ⟨seeds, built⟩

/-- The nodes of a tree that is built label the variables that hints claim and the decision
variables. -/
theorem exists_mem_vars_of_build (outcome : (spec.build names s context).outcome = .ok (.tree t))
    {var : VarId} :
    (∃ node ∈ t.nodes, var ∈ node.vars) ↔ var ∈ spec.claimed ∨ var ∈ names.decisions := by
  obtain ⟨stages, seeds, objective, compiled, -, -, rfl, -⟩ := exists_of_build outcome
  rw [SearchTree.exists_mem_vars_ofStages, exists_mem_vars_of_stages compiled]

/-- Where nothing is to decide no hint claims a variable, and none is a decision variable. -/
theorem not_mem_of_build_trivial (outcome : (spec.build names s context).outcome = .ok .trivial)
    (var : VarId) : ¬ (var ∈ spec.claimed ∨ var ∈ names.decisions) := by
  obtain ⟨seeds, compiled, -⟩ := exists_of_build_trivial outcome
  rw [← exists_mem_vars_of_stages compiled]
  simp

/-- A tree that is built is ready to be run. -/
theorem exists_ready_of_build (formed : s.Formed)
    (outcome : (spec.build names s context).outcome = .ok (.tree t)) :
    ∃ objective, spec.wireCost s = .ok (objective, (spec.build names s context).store) ∧
      (spec.build names s context).Ready t objective context := by
  obtain ⟨stages, seeds, objective, compiled, nonempty, wired, rfl, listener, timeLimit, made⟩ :=
    exists_of_build outcome
  have works := works_of_stages compiled
  obtain ⟨formed', keeps, fresh⟩ := wired_of_wireCost formed wired
  refine ⟨objective, wired, ?_, ?_, ?_, listener, timeLimit, made⟩
  · rw [SearchTree.size_ofStages]
    exact List.length_pos_of_ne_nil nonempty
  · refine SearchTree.searchable_ofStages fun stage member => ⟨fun var inside => ?_, ?_⟩
    · obtain ⟨v, declared, taken⟩ := (works stage member).takes var inside
      exact ⟨v, keeps var v declared, taken⟩
    · exact (works stage member).order
  · refine ⟨rfl, formed', SearchTree.orders_ofTree works, fun optimizing => ?_, ?_⟩
    · show (spec.build names s context).context.objective.isSome = true
      rw [made]
      cases objective with
      | none => cases optimizing
      | some o => rfl
    · intro var best bound incumbent
      obtain ⟨o, rfl, -⟩ := Option.map_eq_some_iff.1 bound
      have none : (spec.build names s context).context.objective.bind Objective.incumbent =
          o.incumbent := by rw [made]; rfl
      rw [fresh o rfl] at none
      cases none.symm.trans incumbent

end SearchSpec

end StagedSearch
