/-
# What building makes of an objective

A cost that is maximized gets a negated companion: one more variable, and the constraint that it
is the negated cost. The store with the companion is a conservative extension
(`Store.Companion`). It has the satisfying assignments that the store had before, each with one
value more, and propagation decides the companion with the cost for as long as the level stays
open at which the tree was built; the outermost level is never closed. A cost that is minimized is
its own bound.

The nodes of the chain all carry the bound, and the last one sets the incumbent. Beyond what keeps
the stages from being compiled there is one reason not to build: a cost that is to be maximized
and has no value, or a value that cannot be negated.
-/

import StagedSearch.Proofs.Search.Pricing
import StagedSearch.Proofs.Store.Restoration
import StagedSearch.Proofs.Tree.Arrangement

namespace StagedSearch

namespace Store

/-- A store extends another one by a variable that is the negated cost, and by nothing else. -/
structure Companion (s : Store) (cost : VarId) (s' : Store) (bound : VarId) : Prop where
  restricted : ∀ longer, s'.Satisfies longer → s.Satisfies (s.restrict longer)
  extended : ∀ assignment, s.Satisfies assignment →
    ∃! longer, s'.Satisfies longer ∧ s.restrict longer = assignment
  negated : ∀ longer, s'.Satisfies longer →
    ∃ value, longer.int? cost = some value ∧ longer bound = some (.int (-value))
  /-- Whatever is asked of the store from then on, propagation that succeeds decides the bound with
  the cost. Only closing the level of the extension itself takes the extension back, and at the
  outermost level there is no such request. -/
  decided : ∀ operations : List StoreOperation,
    (∀ operation ∈ operations, operation.InRange) →
    (∀ first, first <+: operations → s'.level ≤ (StoreOperation.applyAll s' first).level) →
    (StoreOperation.applyAll s' operations).consistency.1 = true → ∀ value,
    (StoreOperation.applyAll s' operations).consistency.2.domains.Decides cost value →
    (StoreOperation.applyAll s' operations).consistency.2.domains.Decides bound (-value)

end Store

/-- Every node carries the bound, and the one with the greatest number sets the incumbent. -/
structure SearchTree.Minimizes (t : SearchTree) (bound : VarId) : Prop where
  bound : ∀ id node, t.node? id = some node → node.bound = some bound
  optimizing : ∀ id node, t.node? id = some node → (node.optimizing = true ↔ id + 1 = t.size)

/-- A tree is built for the goal of a search, with the store and the context that go with it. -/
structure SearchSpec.Wires {ρ : Type} (spec : SearchSpec) (s : Store) (built : Built ρ)
    (t : SearchTree) : Prop where
  nonempty : 0 < t.size
  chain : t.IsChain
  maximized : spec.goal = .maximize → ∃ cost, spec.cost = some cost ∧
    s.Companion cost built.store ⟨s.size⟩ ∧ t.Minimizes ⟨s.size⟩ ∧
    built.context.objective = some ⟨cost, ⟨s.size⟩, none⟩
  minimized : spec.goal = .minimize → ∃ cost, spec.cost = some cost ∧
    built.store = s ∧ t.Minimizes cost ∧ built.context.objective = some ⟨cost, cost, none⟩
  satisfied : spec.goal = .satisfy → built.store = s ∧
    ∀ id node, t.node? id = some node → node.bound = none ∧ node.optimizing = false

/-- The cost is to be maximized, and it has no value or one that cannot be negated. -/
def SearchSpec.RefusesCost (spec : SearchSpec) (s : Store) (cost : VarId) : Prop :=
  spec.goal = .maximize ∧
    ((¬ ∃ value, s.domains.Holds cost value) ∨ s.domains.Holds cost Signed64.least)

/-! ## Constraints stay while their level is open -/

namespace Store

variable {s : Store} {imposed : Imposed}

theorem Formed.mem_constraints_apply (formed : s.Formed) {operation : StoreOperation}
    (member : imposed ∈ s.constraints) (open_ : imposed.level ≤ (operation.apply s).level) :
    imposed ∈ (operation.apply s).constraints := by
  cases stays : operation.movesLevel with
  | false =>
    rcases formed.apply_cases stays with
      ⟨-, t, -, applied⟩ | ⟨-, c, applied⟩ | ⟨v, d, -, applied⟩
    · rw [applied]
      exact member
    · rw [applied]
      exact List.mem_append_left _ member
    · rw [applied]
      exact member
  | true =>
    cases operation with
    | pushLevel => exact member
    | popLevel => exact List.mem_filter.2 ⟨member, decide_eq_true open_⟩
    | _ => cases stays

theorem Formed.mem_constraints_applyAll (formed : s.Formed) {operations : List StoreOperation}
    (inRange : ∀ operation ∈ operations, operation.InRange) (member : imposed ∈ s.constraints)
    (open_ : ∀ first, first <+: operations →
      imposed.level ≤ (StoreOperation.applyAll s first).level) :
    imposed ∈ (StoreOperation.applyAll s operations).constraints := by
  induction operations generalizing s with
  | nil => exact member
  | cons operation rest ih =>
    obtain ⟨own, later⟩ := List.forall_mem_cons.1 inRange
    have next := formed.mem_constraints_apply member
      (open_ [operation] (List.prefix_append [operation] rest))
    exact ih (formed.apply own) later next fun first begins =>
      open_ (operation :: first) (List.cons_prefix_cons.2 ⟨rfl, begins⟩)

/-- What propagation leaves, when it succeeds, is stable under every constraint that is still
imposed. -/
theorem Formed.stable_of_consistency (formed : s.Formed) (member : imposed ∈ s.constraints)
    (consistent : s.consistency.1 = true) : imposed.constraint.Stable s.consistency.2.domains := by
  have run : s.domains.propagateAll s.rules = (true, s.consistency.2.domains) :=
    Prod.ext consistent rfl
  exact (DomainTable.narrows_of_propagateAll formed.canonical run).2 _
    (List.mem_map.2 ⟨imposed, member, rfl⟩)

/-! ## The negated companion of a cost -/

variable {cost : VarId} {name : String} {low high : Int} {d : IntDomain} {longer : Assignment}

theorem negated_of_satisfies (formed : s.Formed)
    (satisfies : (s.withNegated cost name low high).Satisfies longer) :
    ∃ value, longer.int? cost = some value ∧ longer ⟨s.size⟩ = some (.int (-value)) := by
  obtain ⟨⟨-, ⟨value, own, admits⟩, -⟩, holds⟩ := (satisfies_withNegated_iff formed).1 satisfies
  obtain ⟨a, b, bound, priced, zero⟩ := Constraint.holds_negation_iff.1 holds
  cases value with
  | bool | set => exact admits.elim
  | int value =>
    have same : value = a := by simpa [Assignment.int?, own, Value.asInt?] using bound
    have opposite : value = -b := by omega
    exact ⟨b, priced, by rw [own, opposite]⟩

/-- The companion has no choice: it is decided by the cost, and nothing else is new. -/
theorem eq_of_restrict_eq (formed : s.Formed) (inside : cost.index < s.size)
    {other : Assignment} (left : (s.withNegated cost name low high).Satisfies longer)
    (right : (s.withNegated cost name low high).Satisfies other)
    (same : s.restrict longer = s.restrict other) : longer = other := by
  have before (var : VarId) (below : var.index < s.size) : longer var = other var := by
    have equal : s.restrict longer var = s.restrict other var := congrFun same var
    rwa [restrict_of_lt below, restrict_of_lt below] at equal
  funext var
  rcases Nat.lt_trichotomy var.index s.size with below | equal | above
  · exact before var below
  · obtain rfl : var = ⟨s.size⟩ := congrArg VarId.mk equal
    obtain ⟨a, first, own⟩ := negated_of_satisfies formed left
    obtain ⟨b, second, own'⟩ := negated_of_satisfies formed right
    rw [Assignment.int?, before cost inside] at first
    obtain rfl := Option.some.inj (first.symm.trans second)
    rw [own, own']
  · rw [((satisfies_withNegated_iff formed).1 left).1.2.2 var above,
      ((satisfies_withNegated_iff formed).1 right).1.2.2 var above]

theorem Formed.companion_withNegated (formed : s.Formed) (inside : cost.index < s.size)
    (here : s.domains.int? cost = some d) (least : d.min? = some low)
    (greatest : d.max? = some high) (first : Signed64.InRange (-high))
    (second : Signed64.InRange (-low)) :
    s.Companion cost (s.withNegated cost name low high) ⟨s.size⟩ := by
  have extends_ : s.Extends (s.withNegated cost name low high) :=
    formed.extends_withNegated inside here least greatest
  have formed' : (s.withNegated cost name low high).Formed :=
    formed.withNegated inside first second
  refine ⟨extends_.restricted, fun assignment satisfies => ?_,
    fun longer => negated_of_satisfies formed,
    fun operations inRange open_ consistent value decides => ?_⟩
  · obtain ⟨longer, satisfies', same⟩ := extends_.extended assignment satisfies
    refine ⟨longer, ⟨satisfies', same⟩, ?_⟩
    rintro other ⟨satisfies'', same'⟩
    exact eq_of_restrict_eq formed inside satisfies'' satisfies' (same'.trans same.symm)
  · have member : ⟨s.level, .negation ⟨s.size⟩ cost⟩ ∈
        (s.withNegated cost name low high).constraints :=
      List.mem_append_right _ (List.mem_singleton.2 rfl)
    have reached := formed'.applyAll inRange
    have stays := formed'.mem_constraints_applyAll inRange member open_
    exact decides_of_negation reached.consistency.canonical
      (reached.stable_of_consistency stays consistent) decides

end Store

/-! ## The chain -/

namespace SearchTree

variable {bound : VarId} {stages : List Stage}

theorem minimizes_ofStages (bound : VarId) (stages : List Stage) :
    (ofStages (some bound) stages).Minimizes bound := by
  constructor
  · intro id node here
    obtain ⟨stage, -, rfl⟩ := exists_of_node?_ofStages here
    rfl
  · intro id node here
    obtain ⟨stage, -, rfl⟩ := exists_of_node?_ofStages here
    rw [size_ofStages]
    simp [chainNode]

theorem unbound_ofStages {id : Nat} {node : SearchNode}
    (here : (ofStages none stages).node? id = some node) :
    node.bound = none ∧ node.optimizing = false := by
  obtain ⟨stage, -, rfl⟩ := exists_of_node?_ofStages here
  exact ⟨rfl, rfl⟩

end SearchTree

/-! ## Costs that cannot be wired -/

namespace Store

variable {s : Store} {cost : VarId} {v : Variable} {d : IntDomain}

/-- Wiring finds the domain and the declaration of a cost. -/
theorem ofStore_eq_ok_of_int? (declared : s.declaration? cost = some v)
    (here : s.domains.int? cost = some d) :
    SolveError.ofStore (s.intDomain cost) = .ok d ∧
      SolveError.ofStore (s.declaration cost) = .ok v := by
  have found := DomainTable.int?_eq_some_iff.1 here
  have named := Store.declaration_eq_ok.2 declared
  refine ⟨SolveError.ofStore_eq_ok.2 ?_, SolveError.ofStore_eq_ok.2 named⟩
  simp only [intDomain, named, domain, found, bind, Except.bind, pure, Except.pure]

/-- A variable that is not a set has an integer domain. -/
theorem Formed.exists_int?_of_numeric (formed : s.Formed) (declared : s.declaration? cost = some v)
    (numeric : v.kind ≠ .set) : ∃ d, s.domains.int? cost = some d := by
  obtain ⟨d, here, suits⟩ := formed.exists_domain declared
  obtain ⟨name, kind⟩ := v
  cases d with
  | int d => exact ⟨d, DomainTable.int?_eq_some_iff.2 here⟩
  | set d =>
    cases kind with
    | int | bool => exact suits.elim
    | set => exact absurd rfl numeric

end Store

namespace SearchSpec

variable {spec : SearchSpec} {s : Store} {cost : VarId} {v : Variable} {d : IntDomain}

/-- A maximum with values, all of which can be negated, is wired. -/
theorem exists_wireMaximum_eq_ok (declared : s.declaration? cost = some v)
    (here : s.domains.int? cost = some d) (canonical : d.Canonical) (inRange : d.InRange)
    (filled : d.HasValue) (negatable : Signed64.least ∉ d) :
    ∃ made, wireMaximum cost s = .ok made := by
  obtain ⟨low, high, least, greatest⟩ := canonical.exists_bounds filled
  obtain ⟨lowest, -⟩ := canonical.min?_eq_some_iff.1 least
  obtain ⟨highest, -⟩ := canonical.max?_eq_some_iff.1 greatest
  have above (value : Int) (inside : value ∈ d) : Signed64.InRange (-value) := by
    have bounds := inRange value inside
    have different : value ≠ Signed64.least := fun same => negatable (same ▸ inside)
    unfold Signed64.InRange Signed64.least Signed64.greatest at *
    omega
  obtain ⟨domain, named⟩ := Store.ofStore_eq_ok_of_int? declared here
  have first : Signed64.checked (-high) = some (-high) :=
    Signed64.checked_eq_some_iff.2 ⟨above high highest, rfl⟩
  have second : Signed64.checked (-low) = some (-low) :=
    Signed64.checked_eq_some_iff.2 ⟨above low lowest, rfl⟩
  simp only [wireMaximum, domain, named, least, greatest, first, second, bind, Except.bind]
  exact ⟨_, rfl⟩

/-- A maximum without a value, or with one that cannot be negated, is refused. -/
theorem exists_wireMaximum_eq_error (declared : s.declaration? cost = some v)
    (here : s.domains.int? cost = some d) (canonical : d.Canonical) (inRange : d.InRange)
    (refused : ¬ d.HasValue ∨ Signed64.least ∈ d) :
    ∃ fault, wireMaximum cost s = .error (.malformedCost fault) := by
  obtain ⟨domain, named⟩ := Store.ofStore_eq_ok_of_int? declared here
  by_cases filled : d.HasValue
  · -- The least value of the domain is the least number, whose negation leaves the range.
    have inside := refused.resolve_left (not_not.2 filled)
    obtain ⟨low, high, least, greatest⟩ := canonical.exists_bounds filled
    obtain ⟨lowest, below⟩ := canonical.min?_eq_some_iff.1 least
    obtain rfl : low = Signed64.least := le_antisymm (below _ inside) (inRange low lowest).1
    have outside : Signed64.checked (-Signed64.least) = none := by decide
    simp only [wireMaximum, domain, named, least, greatest, outside, bind, Except.bind]
    cases Signed64.checked (-high) <;> exact ⟨_, rfl⟩
  · have nothing : d.min? = none := by
      cases least : d.min? with
      | none => rfl
      | some low => exact absurd ⟨low, (canonical.min?_eq_some_iff.1 least).1⟩ filled
    simp only [wireMaximum, domain, named, nothing, bind, Except.bind]
    exact ⟨_, rfl⟩

theorem wireCost_maximize (goal : spec.goal = .maximize) (named : spec.cost = some cost) :
    spec.wireCost s = (wireMaximum cost s).map fun made => (some made.1, made.2) := by
  unfold wireCost
  rw [goal, named]

theorem exists_wireCost_eq_error (formed : s.Formed) (named : spec.cost = some cost)
    (declared : s.declaration? cost = some v) (numeric : v.kind ≠ .set)
    (refuses : spec.RefusesCost s cost) :
    ∃ fault, spec.wireCost s = .error (.malformedCost fault) := by
  obtain ⟨d, here⟩ := formed.exists_int?_of_numeric declared numeric
  obtain ⟨goal, refused⟩ := refuses
  simp only [DomainTable.holds_iff_of_int? here] at refused
  obtain ⟨fault, failed⟩ := exists_wireMaximum_eq_error declared here (formed.canonical.int? here)
    (formed.inRange_int? here) refused
  exact ⟨fault, by rw [wireCost_maximize goal named, failed]; rfl⟩

theorem exists_wireCost_eq_ok (formed : s.Formed) (named : spec.cost = some cost)
    (declared : s.declaration? cost = some v) (numeric : v.kind ≠ .set)
    (spares : ¬ spec.RefusesCost s cost) : ∃ made, spec.wireCost s = .ok made := by
  cases goal : spec.goal with
  | satisfy => exact ⟨_, wireCost_satisfy goal⟩
  | minimize => exact ⟨_, wireCost_minimize goal named⟩
  | maximize =>
    obtain ⟨d, here⟩ := formed.exists_int?_of_numeric declared numeric
    obtain ⟨filled, negatable⟩ := not_or.1 fun refused => spares ⟨goal, refused⟩
    rw [not_not] at filled
    rw [DomainTable.holds_iff_of_int? here] at negatable
    simp only [DomainTable.holds_iff_of_int? here] at filled
    obtain ⟨made, succeeded⟩ := exists_wireMaximum_eq_ok declared here
      (formed.canonical.int? here) (formed.inRange_int? here) filled negatable
    exact ⟨_, by rw [wireCost_maximize goal named, succeeded]; rfl⟩

/-! ## Building -/

variable {ρ : Type} [Reporter ρ] {names : Names} {context : Context ρ} {t : SearchTree}

/-- Where there are stages, building fails exactly as wiring does, and builds a tree otherwise. -/
theorem outcome_build_of_stages {stages : List Stage} {seeds : Generator}
    (compiled : spec.stages names s context.seeds = .ok stages seeds) (nonempty : stages ≠ []) :
    (∀ e, spec.wireCost s = .error e → (spec.build names s context).outcome = .error e) ∧
      ∀ made, spec.wireCost s = .ok made →
        ∃ t, (spec.build names s context).outcome = .ok (.tree t) := by
  unfold build
  rw [compiled]
  simp only [if_neg (mt List.isEmpty_iff.1 nonempty)]
  unfold chain
  constructor
  · intro e failed
    rw [failed]
  · intro made succeeded
    rw [succeeded]
    exact ⟨_, rfl⟩

theorem wires_of_build (formed : s.Formed)
    (outcome : (spec.build names s context).outcome = .ok (.tree t)) :
    spec.Wires s (spec.build names s context) t := by
  obtain ⟨stages, seeds, objective, -, nonempty, wired, rfl, -, -, made⟩ := exists_of_build outcome
  have filled : 0 < (SearchTree.ofStages (objective.map Objective.bound) stages).size := by
    rw [SearchTree.size_ofStages]
    exact List.length_pos_of_ne_nil nonempty
  refine ⟨filled, SearchTree.isChain_ofStages _ _, fun goal => ?_, fun goal => ?_, fun goal => ?_⟩
  · rcases wireCost_cases wired with
      ⟨other, -⟩ | ⟨_, other, -⟩ |
      ⟨cost, v, d, low, high, -, named, declared, here, least, greatest, first, second, rfl, same⟩
    · cases goal.symm.trans other
    · cases goal.symm.trans other
    · have inside := (Array.getElem?_eq_some_iff.1 declared).1
      refine ⟨cost, named, ?_, SearchTree.minimizes_ofStages _ _, made⟩
      rw [same]
      exact formed.companion_withNegated inside here least greatest first second
  · rcases wireCost_cases wired with
      ⟨other, -⟩ | ⟨cost, -, named, rfl, same⟩ | ⟨_, _, _, _, _, other, -⟩
    · cases goal.symm.trans other
    · exact ⟨cost, named, same, SearchTree.minimizes_ofStages _ _, made⟩
    · cases goal.symm.trans other
  · rcases wireCost_cases wired with
      ⟨-, rfl, same⟩ | ⟨_, other, -⟩ | ⟨_, _, _, _, _, other, -⟩
    · exact ⟨same, fun id node => SearchTree.unbound_ofStages⟩
    · cases goal.symm.trans other
    · cases goal.symm.trans other

/-- A tree that is built is wired for its goal. Where there are stages and the cost is not a set,
building fails exactly if the cost is to be maximized and has no value or the least number as a
value, and it always says that it is the cost. -/
theorem wires_of_reachable (reached : s.Reachable) (spec : SearchSpec) (names : Names)
    (context : Context ρ) :
    (∀ t, (spec.build names s context).outcome = .ok (.tree t) →
      spec.Wires s (spec.build names s context) t) ∧
    ∀ stages seeds cost v, spec.stages names s context.seeds = .ok stages seeds → stages ≠ [] →
      spec.cost = some cost → s.declaration? cost = some v → v.kind ≠ .set →
      ((∃ t, (spec.build names s context).outcome = .ok (.tree t)) ∨
        ∃ fault, (spec.build names s context).outcome = .error (.malformedCost fault)) ∧
      ((∃ e, (spec.build names s context).outcome = .error e) ↔ spec.RefusesCost s cost) := by
  have formed := reached.formed
  refine ⟨fun t outcome => wires_of_build formed outcome, ?_⟩
  intro stages seeds cost v compiled nonempty named declared numeric
  obtain ⟨fails, succeeds⟩ := outcome_build_of_stages compiled nonempty
  by_cases refuses : spec.RefusesCost s cost
  · obtain ⟨fault, failed⟩ := exists_wireCost_eq_error formed named declared numeric refuses
    have outcome := fails _ failed
    exact ⟨.inr ⟨fault, outcome⟩, iff_of_true ⟨_, outcome⟩ refuses⟩
  · obtain ⟨made, wired⟩ := exists_wireCost_eq_ok formed named declared numeric refuses
    obtain ⟨t, outcome⟩ := succeeds made wired
    refine ⟨.inl ⟨t, outcome⟩, iff_of_false ?_ refuses⟩
    rintro ⟨e, failed⟩
    cases outcome.symm.trans failed

/-- A cost with holes that reaches the greatest number gets a companion. With the least number as
one of its values it is refused. -/
theorem wires_of_reachable_ends :
    let spec : SearchSpec :=
      ⟨.maximize, some ⟨0⟩, some (.leaf .int ⟨[⟨0⟩], some .inputOrder, some .max, .complete⟩)⟩
    let context : Context NoReporter := Context.ofListener (Listener.all none)
    let s := StoreOperation.applyAll .empty [.declareValues "c" [-5, 3, Signed64.greatest]]
    let s' := StoreOperation.applyAll .empty [.declareValues "c" [Signed64.least, 3]]
    s.Reachable ∧ s'.Reachable ∧
      (∃ t, (spec.build Names.empty s context).outcome = .ok (.tree t) ∧
        s.Companion ⟨0⟩ (spec.build Names.empty s context).store ⟨1⟩ ∧ t.Minimizes ⟨1⟩) ∧
      ∃ e, (spec.build Names.empty s' context).outcome = .error e := by
  intro spec context s s'
  have reached : s.Reachable := Store.Reachable.empty.applyAll (by decide)
  have reached' : s'.Reachable := Store.Reachable.empty.applyAll (by decide)
  let stages : List Stage :=
    [⟨⟨.int, [⟨0⟩], .inputOrder, .max, .complete, .descending⟩, .explicit⟩]
  refine ⟨reached, reached', ⟨SearchTree.ofStages (some ⟨1⟩) stages, ?_⟩, ?_⟩
  · have outcome : (spec.build Names.empty s context).outcome =
        .ok (.tree (SearchTree.ofStages (some ⟨1⟩) stages)) := by decide +kernel
    obtain ⟨cost, named, companion, minimizes, -⟩ :=
      ((wires_of_reachable reached spec Names.empty context).1 _ outcome).maximized rfl
    obtain rfl := Option.some.inj named
    exact ⟨outcome, companion, minimizes⟩
  · have compiled : spec.stages Names.empty s' context.seeds = .ok stages context.seeds := rfl
    refine ((wires_of_reachable reached' spec Names.empty context).2 stages _ ⟨0⟩ ⟨"c", .int⟩
      compiled (List.cons_ne_nil _ _) rfl rfl (by decide)).2.2 ⟨rfl, .inr ?_⟩
    exact ⟨.ofValues [Signed64.least, 3], rfl, by decide⟩

end SearchSpec

end StagedSearch
