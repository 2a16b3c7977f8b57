/-
# What building leaves where it fails

Building in place, step by step, is compared with the building that changes the store all at once
(`Building.tree_apply`). That they agree rests on two requests that are never refused once the
cost has been looked at: the bounds of the negated cost are in order, because those of the cost
are, and both variables of the constraint are declared. All other steps that can fail come before
the first change, and change nothing but the seeds. So a build that fails has no effect.
-/

import StagedSearch.Proofs.Tree.Wiring
import StagedSearch.Tree.InPlace

namespace StagedSearch

/-- A constraint on declared variables is not refused. -/
theorem Store.impose_eq_ok {s : Store} {c : Constraint}
    (declared : ∀ var ∈ c.scope, var.index < s.size) : s.impose c = .ok (s.addConstraint c) := by
  have known : c.scope.find? (fun var => (s.declaration? var).isNone) = none := by
    refine List.find?_eq_none.2 fun var member => ?_
    rw [declaration?, Array.getElem?_eq_getElem (declared var member)]
    exact Bool.false_ne_true
  unfold impose
  rw [known]

namespace Building

variable {ρ α β : Type}

/-! ## Stages -/

theorem draw_pure (a : α) : draw (ρ := ρ) (fun _ => pure a) = pure a := rfl

/-- Two steps that draw seeds are one. -/
theorem draw_bind (first : Store → Seeded α) (second : α → Store → Seeded β) :
    (draw first >>= fun a => draw (ρ := ρ) (second a)) =
      draw fun s => first s >>= fun a => second a s := by
  funext site
  rw [bind_apply]
  unfold draw
  simp only [bind_apply]
  cases first site.store site.context.seeds <;> rfl

theorem ask_eq_draw (question : Store → Except SolveError α) :
    ask (ρ := ρ) question = draw fun s =>
      match question s with
      | .ok a => pure a
      | .error e => throw e := by
  funext site
  unfold ask draw
  dsimp only
  cases question site.store <;> rfl

/-- Compiling leaves does nothing to a site but draw seeds, leaf after leaf. -/
theorem compileAll_eq_draw (role : NodeRole) (leaves : List (VarKind × VarSearch)) :
    compileAll (ρ := ρ) role leaves = draw fun s => SearchSpec.compileAll s role leaves := by
  induction leaves with
  | nil => rfl
  | cons leaf rest ih =>
    unfold compileAll
    rw [ih]
    simp only [← draw_pure, draw_bind]
    rfl

theorem stages_eq_draw (spec : SearchSpec) (names : Names) :
    stages (ρ := ρ) spec names = draw fun s => spec.stages names s := by
  unfold stages
  simp only [compileAll_eq_draw, ask_eq_draw, ← draw_pure, draw_bind]
  unfold SearchSpec.stages
  congr 1
  funext s
  congr 1
  funext explicit
  cases spec.completion names s <;> rfl

/-! ## The cost -/

variable {site : Site ρ} {spec : SearchSpec} {cost : VarId} {names : Names}

theorem ask_bind (question : Store → Except SolveError α) (rest : α → Building ρ β) :
    (ask question >>= rest) site =
      match question site.store with
      | .ok a => rest a site
      | .error e => .error e site := by
  rw [bind_apply]
  unfold ask
  cases question site.store <;> rfl

theorem change_bind {request : Store → Except StoreError (α × Store)} {a : α} {store : Store}
    (granted : request site.store = .ok (a, store)) (rest : α → Building ρ β) :
    (change request >>= rest) site = rest a { site with store } := by
  rw [bind_apply]
  unfold change
  rw [granted]

/-- The companion of a cost is declared and tied to it without being refused. -/
theorem change_withNegated {name : String} {low high : Int} (ordered : low ≤ high)
    (inside : cost.index < site.store.size) :
    (do
      let bound ← change fun s => s.declareInt ("-" ++ name) (-high) (-low)
      change fun s => (s.impose (.negation bound cost)).map ((), ·)
      return ⟨cost, bound, none⟩ : Building ρ Objective) site =
      .ok ⟨cost, ⟨site.store.size⟩, none⟩
        { site with store := site.store.withNegated cost name low high } := by
  have declared : site.store.declareInt ("-" ++ name) (-high) (-low) =
      .ok (site.store.addInt ("-" ++ name) (-high) (-low)) := if_neg (by omega)
  have wider : (site.store.addInt ("-" ++ name) (-high) (-low)).2.size = site.store.size + 1 :=
    Array.size_push _
  rw [change_bind declared]
  have imposed : (site.store.addInt ("-" ++ name) (-high) (-low)).2.impose
      (.negation ⟨site.store.size⟩ cost) = .ok (site.store.withNegated cost name low high) := by
    refine Store.impose_eq_ok fun var member => ?_
    simp only [Constraint.scope, List.mem_cons, List.not_mem_nil, or_false] at member
    rw [wider]
    rcases member with rfl | rfl
    · exact Nat.lt_succ_self _
    · omega
  have tied : ((site.store.addInt ("-" ++ name) (-high) (-low)).2.impose
      (.negation ⟨site.store.size⟩ cost)).map (((), ·) : Store → Unit × Store) =
      .ok ((), site.store.withNegated cost name low high) := by rw [imposed]; rfl
  exact change_bind tied _

/-- Wiring a maximum changes the store only where it succeeds. -/
theorem wireMaximum_apply (formed : site.store.Formed) :
    wireMaximum cost site =
      match SearchSpec.wireMaximum cost site.store with
      | .ok (objective, store) => .ok objective { site with store }
      | .error e => .error e site := by
  unfold wireMaximum
  rw [ask_bind]
  cases domain : SolveError.ofStore (site.store.intDomain cost) with
  | error e => simp only [SearchSpec.wireMaximum, domain, bind, Except.bind]
  | ok d =>
    -- The declaration is looked up before the bounds there and after them here. A variable with
    -- a domain is declared, so this makes no difference.
    have found := SolveError.ofStore_eq_ok.1 domain
    have here := Store.intDomain_eq_ok found
    obtain ⟨v, declared, -⟩ := except_bind_eq_ok.1 found
    have named := SolveError.ofStore_eq_ok.2 declared
    cases least : d.min? <;> cases greatest : d.max?
    case some.some low high =>
      simp only [least, greatest, ask_bind, named]
      cases first : Signed64.checked (-high) <;> cases second : Signed64.checked (-low)
      case some.some =>
        obtain ⟨-, rfl⟩ := Signed64.checked_eq_some_iff.1 first
        obtain ⟨-, rfl⟩ := Signed64.checked_eq_some_iff.1 second
        have canonical : d.Canonical := formed.canonical.int? here
        have ordered : low ≤ high :=
          (canonical.min?_eq_some_iff.1 least).2 high (canonical.max?_eq_some_iff.1 greatest).1
        have inside := (Array.getElem?_eq_some_iff.1 (Store.declaration_eq_ok.1 declared)).1
        dsimp only
        rw [change_withNegated ordered inside]
        simp only [SearchSpec.wireMaximum, domain, named, least, greatest, first, second, bind,
          Except.bind]
        rfl
      all_goals
        simp only [SearchSpec.wireMaximum, domain, named, least, greatest, first, second, bind,
          Except.bind]
        rfl
    all_goals
      simp only [SearchSpec.wireMaximum, domain, named, least, greatest, bind, Except.bind]
      rfl

theorem wireCost_apply (formed : site.store.Formed) :
    wireCost spec site =
      match spec.wireCost site.store with
      | .ok (objective, store) =>
        .ok (objective.map Objective.bound)
          ⟨store, { site.context with objective := objective.or site.context.objective }⟩
      | .error e => .error e site := by
  unfold wireCost SearchSpec.wireCost
  cases goal : spec.goal with
  | satisfy => rfl
  | minimize => cases spec.cost <;> rfl
  | maximize =>
    cases spec.cost with
    | none => rfl
    | some cost =>
      dsimp only
      rw [bind_apply, wireMaximum_apply formed]
      cases SearchSpec.wireMaximum cost site.store <;> rfl

/-! ## The tree -/

variable [Reporter ρ] {s : Store} {context : Context ρ}

/-- Building step by step comes to what building hands on. -/
theorem tree_apply (formed : s.Formed) :
    tree spec names ⟨s, context⟩ = (spec.build names s context).result := by
  unfold tree
  rw [bind_apply, stages_eq_draw]
  unfold draw SearchSpec.build
  dsimp only
  cases compiled : spec.stages names s context.seeds with
  | error e seeds => rfl
  | ok stages seeds =>
    dsimp only
    cases empty : stages.isEmpty with
    | true => rfl
    | false =>
      simp only [Bool.false_eq_true, if_false]
      rw [bind_apply, wireCost_apply formed]
      unfold SearchSpec.chain
      dsimp only
      cases spec.wireCost s <;> rfl

end Building

namespace SearchSpec

variable {ρ : Type} [Reporter ρ] {s : Store}

/-- A build that fails has no effect: the steps that it takes in place leave the store and the
context as they were, but for the seeds that were drawn. -/
theorem unchanged_of_failed_build (reached : s.Reachable) (spec : SearchSpec) (names : Names)
    (context : Context ρ) :
    Building.tree spec names ⟨s, context⟩ = (spec.build names s context).result ∧
      ∀ e, (spec.build names s context).outcome = .error e →
        ∃ seeds, (spec.build names s context).result = .error e ⟨s, { context with seeds }⟩ := by
  refine ⟨Building.tree_apply reached.formed, fun e failed => ?_⟩
  obtain ⟨seeds, same⟩ := exists_build_eq_of_error failed
  rw [same]
  exact ⟨seeds, rfl⟩

/-- A cost that cannot be negated is refused after its leaf has drawn a seed, and a decision
variable that does not exist after that leaf was compiled. -/
theorem unchanged_of_failed_build_random :
    let leaf := SearchDirective.leaf .int ⟨[⟨0⟩], some .inputOrder, some .random, .complete⟩
    let spec : SearchSpec := ⟨.maximize, some ⟨0⟩, some leaf⟩
    let context : Context NoReporter := Context.ofListener (Listener.all none)
    let s := StoreOperation.applyAll .empty [.declareInt "c" Signed64.least 0]
    s.Reachable ∧
      (∃ seeds, Building.tree spec Names.empty ⟨s, context⟩ =
        .error (.malformedCost (.notNegatable "c")) ⟨s, { context with seeds }⟩) ∧
      ∃ seeds, Building.tree spec (Names.empty.addDecision ⟨5⟩) ⟨s, context⟩ =
        .error (.store (.unknownVariable ⟨5⟩)) ⟨s, { context with seeds }⟩ := by
  intro leaf spec context s
  have reached : s.Reachable := Store.Reachable.empty.applyAll (by decide)
  refine ⟨reached, ?_, ?_⟩
  · obtain ⟨same, unchanged⟩ := unchanged_of_failed_build reached spec Names.empty context
    obtain ⟨seeds, result⟩ := unchanged _ rfl
    exact ⟨seeds, same.trans result⟩
  · obtain ⟨same, unchanged⟩ :=
      unchanged_of_failed_build reached spec (Names.empty.addDecision ⟨5⟩) context
    obtain ⟨seeds, result⟩ := unchanged _ rfl
    exact ⟨seeds, same.trans result⟩

end SearchSpec

end StagedSearch
