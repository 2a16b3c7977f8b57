/-
# The state of a search between its steps

What a run of the engine relies on at every moment (`Running`), what it needs in order not to
end early (`Undisturbed`), and the steps that only keep accounts (`Quiet`). The one
step that narrows is the decision; it is described by what holds after it has failed, and
after it has succeeded (`Entered`).
-/

import StagedSearch.Proofs.Search.Explored

namespace StagedSearch

/-- An order lists the values of every domain that a variable of a node can have. -/
def ValueOrder.SuitsKind (order : ValueOrder) (leaf : VarKind) : Prop :=
  ∀ kind d, CompiledSearch.takes leaf kind = true → kind.Suits d → order.Suits d

theorem ValueOrder.SuitsKind.candidates {order : ValueOrder} {leaf : VarKind}
    (suits : order.SuitsKind leaf) (s : Store) (var : VarId) :
    (order.candidates s var).2.SuitsKind leaf :=
  fun kind d takes fits => (suits kind d takes fits).candidates s var

/-- A reporter that does not fail, whatever it is told from now on. -/
def Reporter.NeverFails {ρ : Type} [Reporter ρ] (reporter : ρ) : Prop :=
  ∃ states : ρ → Prop, states reporter ∧ ∀ r, states r → ∀ s solution,
    (Reporter.report r s solution).1 = none ∧ states (Reporter.report r s solution).2

/-- A listener that never asks to stop. -/
structure Listener.Endless {ρ : Type} [Reporter ρ] (l : Listener ρ) : Prop where
  limit : l.limit = none
  fault : l.fault = none
  reporter : ∀ r, l.reporter = some r → Reporter.NeverFails r

/-- A listener that tells no one never asks to stop if it has no limit. -/
theorem Listener.endless_of_reporter_none {ρ : Type} [Reporter ρ] {l : Listener ρ}
    (limit : l.limit = none) (fault : l.fault = none) (reporter : l.reporter = none) :
    l.Endless := by
  refine ⟨limit, fault, fun r told => ?_⟩
  rw [reporter] at told
  cases told

namespace SearchTree

/-- What the engine relies on in a tree: its nodes form a chain, all carry the same bound, the
last one optimizes if there is a bound, and every variable is declared with a kind that its
node takes. -/
structure Searchable (t : SearchTree) (bound : Option VarId) (declarations : Array Variable) :
    Prop where
  children : ∀ (id : Nat) node, t.node? id = some node →
    node.children.head? = if id + 1 < t.size then some (id + 1) else none
  bounds : ∀ id node, t.node? id = some node → node.bound = bound
  optimizing : ∀ (id : Nat) node, t.node? id = some node → id + 1 = t.size →
    node.optimizing = bound.isSome
  takes : ∀ id node, t.node? id = some node → ∀ var ∈ node.vars,
    ∃ v, declarations[var.index]? = some v ∧ CompiledSearch.takes node.search.kind v.kind = true

def Orders (t : SearchTree) (progress : Progress) : Prop :=
  ∀ id node, t.node? id = some node →
    ∃ n, progress[id]? = some n ∧ n.valueOrder.SuitsKind node.search.kind

end SearchTree

/-! ## Incumbents that can be improved on -/

namespace Store

variable {bound : Option VarId} {declarations : Array Variable} {incumbent : Option Int}
  {leaves : List Store}

/-- An incumbent lies within the signed range, and its bound is declared as a number. -/
def Improvable (declarations : Array Variable) (bound : Option VarId) (incumbent : Option Int) :
    Prop :=
  ∀ var best, bound = some var → incumbent = some best →
    Signed64.InRange best ∧ ∃ v, declarations[var.index]? = some v ∧ v.kind ≠ .set

/-- A number among the variables of a store is declared as one. -/
theorem Formed.exists_numeric {u : Store} (formed : u.Formed) {var : VarId} {d : IntDomain}
    (here : u.domains.int? var = some d) :
    ∃ v, u.declarations[var.index]? = some v ∧ v.kind ≠ .set := by
  obtain ⟨v, declared, suits⟩ := formed.declared (DomainTable.int?_eq_some_iff.1 here)
  refine ⟨v, declared, fun kind => ?_⟩
  rw [kind] at suits
  exact suits

/-- Solutions leave an incumbent that can be improved on. -/
theorem Improvable.advanceAll (improvable : Improvable declarations bound incumbent)
    (formed : ∀ u ∈ leaves, u.Formed ∧ u.declarations = declarations) :
    Improvable declarations bound (advanceAll bound incumbent leaves) := by
  intro var best bounded
  refine advanceAll_induction (P := fun best => Signed64.InRange best ∧ _)
    (fun best => improvable var best bounded) (fun u member value reached => ?_) best
  obtain ⟨formed', rfl⟩ := formed u member
  obtain ⟨var', bounded', holds⟩ := holds_of_boundValue? formed'.canonical reached
  obtain rfl := Option.some.inj (bounded.symm.trans bounded')
  obtain ⟨d, here, -⟩ := id holds
  exact ⟨formed'.sound.inRange var value holds, formed'.exists_numeric here⟩

end Store

namespace SearchState

variable {ρ : Type}

/-- What holds between the steps of a run. -/
structure Running (t : SearchTree) (bound : Option VarId) (declarations : Array Variable)
    (st : SearchState ρ) : Prop where
  declared : st.store.declarations = declarations
  formed : st.store.Formed
  orders : t.Orders st.progress
  objective : bound.isSome = true → st.context.objective.isSome = true
  improvable : Store.Improvable declarations bound st.context.incumbent?

/-- Nothing makes the search end early. -/
structure Undisturbed [Reporter ρ] (st : SearchState ρ) : Prop where
  deadlines : ∀ id, st.progress.deadline? id = none
  endless : st.context.listener.Endless

/-- A step that only keeps accounts. -/
structure Quiet (t : SearchTree) (st st' : SearchState ρ) : Prop where
  store : st'.store = st.store
  listener : st'.context.listener = st.context.listener
  objective : st'.context.objective = st.context.objective
  orders : t.Orders st.progress → t.Orders st'.progress
  deadlines : (∀ id, st.progress.deadline? id = none) → ∀ id, st'.progress.deadline? id = none

variable {t : SearchTree} {bound : Option VarId} {declarations : Array Variable}
  {st st' st'' : SearchState ρ}

theorem Quiet.refl (t : SearchTree) (st : SearchState ρ) : Quiet t st st :=
  ⟨rfl, rfl, rfl, id, id⟩

theorem Quiet.trans (first : Quiet t st st') (second : Quiet t st' st'') : Quiet t st st'' where
  store := second.store.trans first.store
  listener := second.listener.trans first.listener
  objective := second.objective.trans first.objective
  orders := second.orders ∘ first.orders
  deadlines := second.deadlines ∘ first.deadlines

theorem Quiet.incumbent (quiet : Quiet t st st') :
    st'.context.incumbent? = st.context.incumbent? := by
  unfold Context.incumbent?
  rw [quiet.objective]

theorem Running.of_quiet (running : Running t bound declarations st) (quiet : Quiet t st st') :
    Running t bound declarations st' where
  declared := quiet.store ▸ running.declared
  formed := quiet.store ▸ running.formed
  orders := quiet.orders running.orders
  objective := quiet.objective ▸ running.objective
  improvable := quiet.incumbent ▸ running.improvable

/-- What holds between the steps holds again once a level is closed that leads back. -/
theorem Running.popLevel (running : Running t bound declarations st')
    (before : Running t bound declarations st) (back : st'.popLevel.store = st.store) :
    Running t bound declarations st'.popLevel :=
  ⟨back.symm ▸ before.declared, back.symm ▸ before.formed, running.orders, running.objective,
    running.improvable⟩

theorem Undisturbed.of_quiet [Reporter ρ] (undisturbed : Undisturbed st)
    (quiet : Quiet t st st') : Undisturbed st' where
  deadlines := quiet.deadlines undisturbed.deadlines
  endless := quiet.listener ▸ undisturbed.endless

theorem Explored.of_quiet [Reporter ρ] (quiet : Quiet t st st') (vars : List VarId) :
    Explored bound vars st st' [] :=
  .nil quiet.store quiet.listener quiet.incumbent

/-! ## Keeping accounts -/

theorem getElem?_modifyNode (p : Progress) (id other : NodeId)
    (f : NodeProgress → NodeProgress) :
    (p.modifyNode id f)[other]? = if id = other then p[other]?.map f else p[other]? :=
  Array.getElem?_modify

theorem orders_modifyNode {p : Progress} (orders : t.Orders p) (id : NodeId)
    {f : NodeProgress → NodeProgress}
    (suits : ∀ node n, t.node? id = some node → n.valueOrder.SuitsKind node.search.kind →
      (f n).valueOrder.SuitsKind node.search.kind) : t.Orders (p.modifyNode id f) := by
  intro other node here
  obtain ⟨n, found, before⟩ := orders other node here
  rw [getElem?_modifyNode, found]
  split
  · rename_i same
    subst same
    exact ⟨f n, rfl, suits node n here before⟩
  · exact ⟨n, rfl, before⟩

theorem deadlines_modifyNode {p : Progress} (none : ∀ other, p.deadline? other = none)
    (id : NodeId) {f : NodeProgress → NodeProgress}
    (keeps : ∀ n, n.deadline = Option.none → (f n).deadline = Option.none) :
    ∀ other, (p.modifyNode id f).deadline? other = Option.none := by
  intro other
  have before := none other
  unfold Progress.deadline? at before ⊢
  rw [getElem?_modifyNode]
  split
  · cases here : p[other]? with
    | none => rfl
    | some n =>
      rw [here] at before
      exact keeps n before
  · exact before

/-- Changing what is noted about a node, but neither its order nor its deadline. -/
theorem quiet_modifyNode (t : SearchTree) (st : SearchState ρ) (id : NodeId)
    {f : NodeProgress → NodeProgress} (order : ∀ n, (f n).valueOrder = n.valueOrder)
    (deadline : ∀ n, (f n).deadline = n.deadline) :
    Quiet t st { st with progress := st.progress.modifyNode id f } where
  store := rfl
  listener := rfl
  objective := rfl
  orders orders := orders_modifyNode orders id fun _ n _ suits => (order n).symm ▸ suits
  deadlines none := deadlines_modifyNode none id fun n before => (deadline n).trans before

theorem quiet_setState (t : SearchTree) (st : SearchState ρ) (id : NodeId) (state : NodeState) :
    Quiet t st (st.setState id state) :=
  quiet_modifyNode t st id (fun _ => rfl) fun _ => rfl

theorem quiet_count (t : SearchTree) (st : SearchState ρ) (id : NodeId)
    (f : Counters → Counters) : Quiet t st (st.count id f) :=
  quiet_modifyNode t st id (fun _ => rfl) fun _ => rfl

theorem quiet_backtrack (t : SearchTree) (st : SearchState ρ) (id : NodeId) (before : Nat) :
    Quiet t st (st.backtrack id before) := by
  unfold backtrack
  split
  · exact (quiet_count t st id _).trans (quiet_setState t _ id _)
  · exact .refl t st

theorem quiet_ite_backtrack (t : SearchTree) (st : SearchState ρ) (id : NodeId) (before : Nat)
    (goesOn : Prop) [Decidable goesOn] :
    Quiet t st (if goesOn then st.backtrack id before else st) := by
  split
  · exact quiet_backtrack t st id before
  · exact .refl t st

theorem quiet_expired (t : SearchTree) (st : SearchState ρ) (id : NodeId) :
    Quiet t st (st.expired id).2 := by
  unfold expired
  split
  · exact .refl t st
  · exact ⟨rfl, rfl, rfl, fun orders => orders, fun none => none⟩

/-- No time runs out in an undisturbed search. -/
theorem Undisturbed.expired [Reporter ρ] (undisturbed : Undisturbed st) (id : NodeId) :
    (st.expired id).1 = false := by
  unfold SearchState.expired
  rw [undisturbed.deadlines id]

/-- Setting the incumbent changes only the objective and the journal. -/
theorem setIncumbent_keeps (st : SearchState ρ) (node : SearchNode) :
    (st.setIncumbent node).store = st.store ∧ (st.setIncumbent node).progress = st.progress ∧
      (st.setIncumbent node).context.listener = st.context.listener := by
  unfold setIncumbent
  split <;> exact ⟨rfl, rfl, rfl⟩

/-- The state in which the store has been handed to the listener, before it sets the incumbent. -/
def handed [Reporter ρ] (st : SearchState ρ) (id : NodeId) : SearchState ρ :=
  let context := (st.context.accept st.store).2
  ({ st.setState id .solutionAtLeaf with context } : SearchState ρ).count id fun c =>
    { c with solutions := context.listener.count }

theorem acceptAt_eq [Reporter ρ] (st : SearchState ρ) (id : NodeId) (node : SearchNode) :
    st.acceptAt id node =
      (if (st.context.listener.accept st.store).1 = true then .proceed else .stop,
        (st.handed id).setIncumbent node) :=
  rfl

/-- Handing the store over keeps no other accounts than any quiet step. -/
theorem quiet_handed [Reporter ρ] (t : SearchTree) (st : SearchState ρ) (id : NodeId) :
    Quiet t st { st with progress := (st.handed id).progress } :=
  (quiet_setState t st id .solutionAtLeaf).trans
    (quiet_count t (st.setState id .solutionAtLeaf) id fun c =>
      { c with solutions := (st.context.accept st.store).2.listener.count })

theorem quiet_timeOut (t : SearchTree) (st : SearchState ρ) : Quiet t st st.timeOut :=
  ⟨rfl, rfl, rfl, id, id⟩

/-- Listing candidates moves the order of a node on, to one that suits it as well. -/
theorem quiet_branch (t : SearchTree) (st : SearchState ρ) (id : NodeId) (var : VarId) :
    Quiet t st (st.branch id var).2 := by
  unfold branch
  split
  · exact .refl t st
  · rename_i n found
    refine ⟨rfl, rfl, rfl, fun orders => ?_, fun none => ?_⟩
    · refine orders_modifyNode orders id fun node _ here _ => ?_
      obtain ⟨n', found', suits⟩ := orders id node here
      obtain rfl := Option.some.inj (found.symm.trans found')
      exact suits.candidates st.store var
    · exact deadlines_modifyNode none id fun _ before => before

/-- The candidates of a variable come from an order that suits its node. -/
theorem exists_order_of_branch {id : NodeId} {node : SearchNode} (orders : t.Orders st.progress)
    (here : t.node? id = some node) (var : VarId) :
    ∃ order : ValueOrder, order.SuitsKind node.search.kind ∧
      (st.branch id var).1 = (order.candidates st.store var).1 := by
  obtain ⟨n, found, suits⟩ := orders id node here
  refine ⟨n.valueOrder, suits, ?_⟩
  unfold branch
  rw [found]

/-! ## Deciding -/

/-- What holds after a candidate has been tried with success, inside its level. -/
structure Entered (t : SearchTree) (bound : Option VarId) (choice : Choice)
    (st st' : SearchState ρ) : Prop where
  descends : st.store.Descends st'.store
  stable : st'.store.domains.Stable st.store.rules
  obeys : st'.store.domains.Obeys choice
  improves : st'.store.domains.Improves bound st.context.incumbent?
  back : st'.store.popLevel = st.store
  listener : st'.context.listener = st.context.listener
  objective : st'.context.objective = st.context.objective
  orders : t.Orders st.progress → t.Orders st'.progress
  deadlines : (∀ id, st.progress.deadline? id = none) → ∀ id, st'.progress.deadline? id = none

theorem Entered.incumbent {choice : Choice} (entered : Entered t bound choice st st') :
    st'.context.incumbent? = st.context.incumbent? := by
  unfold Context.incumbent?
  rw [entered.objective]

theorem Entered.running {choice : Choice} (entered : Entered t bound choice st st')
    (running : Running t bound declarations st) : Running t bound declarations st' where
  declared := entered.descends.declarations.trans running.declared
  formed := entered.descends.formed
  orders := entered.orders running.orders
  objective := entered.objective ▸ running.objective
  improvable := entered.incumbent ▸ running.improvable

/-- The search can go on below a candidate that succeeded. -/
theorem Entered.ready {choice : Choice} (entered : Entered t bound choice st st')
    (running : Running t bound declarations st) :
    Running t bound declarations st' ∧ st'.store.domains.Stable st'.store.rules ∧
      st'.store.domains.Improves bound st'.context.incumbent? := by
  refine ⟨entered.running running, ?_, ?_⟩
  · rw [entered.descends.rules]
    exact entered.stable
  · rw [entered.incumbent]
    exact entered.improves

theorem Entered.undisturbed [Reporter ρ] {choice : Choice}
    (entered : Entered t bound choice st st') (undisturbed : Undisturbed st) :
    Undisturbed st' where
  deadlines := entered.deadlines undisturbed.deadlines
  endless := entered.listener ▸ undisturbed.endless

/-- The state in which a candidate has been tried, before its level is closed. -/
def tried (st : SearchState ρ) (id : NodeId) (bound : Option VarId) (choice : Choice) :
    SearchState ρ :=
  let outcome := st.store.pushLevel.attempt choice bound st.context.incumbent?
  let st' : SearchState ρ :=
    { st with
      store := outcome.2, context := st.context.note (.decisionTaken choice outcome.1) }
  st'.count id fun c =>
    { c with
      decisions := c.decisions + 1
      nodes := c.nodes + 1
      wrongDecisions := if outcome.1 then c.wrongDecisions else c.wrongDecisions + 1 }

theorem decide_eq (st : SearchState ρ) (id : NodeId) (bound : Option VarId) (choice : Choice) :
    st.decide id bound choice =
      ((st.store.pushLevel.attempt choice bound st.context.incumbent?).1,
        if (st.store.pushLevel.attempt choice bound st.context.incumbent?).1 = true then
          st.tried id bound choice
        else (st.tried id bound choice).popLevel) :=
  rfl

/-- Closing the level of a candidate leads back, whatever came of the candidate. -/
theorem popLevel_tried (formed : st.store.Formed) (id : NodeId) (choice : Choice) :
    (st.tried id bound choice).store.popLevel = st.store := by
  have outcome := Store.attempted formed.pushLevel.canonical choice bound st.context.incumbent?
  show (st.store.pushLevel.attempt choice bound st.context.incumbent?).2.popLevel = st.store
  rw [outcome.store]
  exact formed.popLevel_of_breaks outcome.breaks

theorem tried_progress (t : SearchTree) (st : SearchState ρ) (id : NodeId)
    (bound : Option VarId) (choice : Choice) :
    (t.Orders st.progress → t.Orders (st.tried id bound choice).progress) ∧
      ((∀ other, st.progress.deadline? other = none) →
        ∀ other, (st.tried id bound choice).progress.deadline? other = none) :=
  ⟨(quiet_count t st id _).orders, (quiet_count t st id _).deadlines⟩

/-- A candidate that fails leaves nothing but accounts behind. -/
theorem quiet_decide (formed : st.store.Formed) {id : NodeId} {choice : Choice}
    (refused : st.decide id bound choice = (false, st')) (t : SearchTree) : Quiet t st st' := by
  rw [decide_eq] at refused
  obtain ⟨failed, rfl⟩ := Prod.mk.inj refused
  rw [if_neg (by simp [failed])]
  show Quiet t st (st.tried id bound choice).popLevel
  obtain ⟨orders, deadlines⟩ := tried_progress t st id bound choice
  exact ⟨popLevel_tried formed id choice, rfl, rfl, orders, deadlines⟩

/-- A candidate that succeeds leads further down. -/
theorem entered_decide (formed : st.store.Formed) {id : NodeId} {choice : Choice}
    (admitted : st.decide id bound choice = (true, st')) (t : SearchTree) :
    Entered t bound choice st st' := by
  have outcome := Store.attempted formed.pushLevel.canonical choice bound st.context.incumbent?
  rw [decide_eq] at admitted
  obtain ⟨succeeded, rfl⟩ := Prod.mk.inj admitted
  rw [if_pos succeeded]
  show Entered t bound choice st (st.tried id bound choice)
  obtain ⟨narrows, stable, obeys, improves⟩ := outcome.success succeeded
  obtain ⟨orders, deadlines⟩ := tried_progress t st id bound choice
  refine ⟨?_, stable, obeys, improves, popLevel_tried formed id choice, rfl, rfl, orders,
    deadlines⟩
  show st.store.Descends (st.store.pushLevel.attempt choice bound st.context.incumbent?).2
  rw [outcome.store]
  exact formed.descends narrows

/-- A settled table that is as the choice says and improves is not lost by trying it. -/
theorem decide_of_settled (running : Running t bound declarations st) {p : DomainTable}
    (settled : p.Settled st.store.rules) (within : p.Within st.store.domains) {id : NodeId}
    {choice : Choice} (obeys : p.Obeys choice)
    (improves : p.Improves bound st.context.incumbent?) :
    ∃ st', st.decide id bound choice = (true, st') ∧ p.Within st'.store.domains := by
  have below : p.Below st.store.pushLevel.domains := ⟨running.formed.pushLevel.sound, within⟩
  have present : ∀ var best, bound = some var → st.context.incumbent? = some best →
      ∃ value, p.Holds var value := by
    intro var best here reached
    obtain ⟨-, v, declared, numeric⟩ := running.improvable var best here reached
    rw [← running.declared] at declared
    obtain ⟨e, there, suits⟩ := running.formed.exists_domain declared
    obtain ⟨d, here, inner⟩ := within.smaller there
    have value := settled.filled var d here
    cases d with
    | int d =>
      obtain ⟨value, inside⟩ := value
      exact ⟨value, d, DomainTable.int?_eq_some_iff.2 here, inside⟩
    | set d =>
      cases e with
      | int e => exact inner.elim
      | set e =>
        cases kind : v.kind with
        | set => exact absurd kind numeric
        | int => rw [kind] at suits; exact suits.elim
        | bool => rw [kind] at suits; exact suits.elim
  obtain ⟨succeeds, above⟩ :=
    Store.attempt_of_settled (s := st.store.pushLevel) settled below obeys improves present
      fun var best here reached => (running.improvable var best here reached).1
  refine ⟨st.tried id bound choice, ?_, above.within⟩
  rw [decide_eq, succeeds, if_pos rfl]

end SearchState

end StagedSearch
