/-
# Variables are decided stage by stage

In a tree that is a chain, the engine decides at a node only when all variables of the earlier
nodes have been decided, and only variables of that node that have not been decided; and it hands
over a store only when the variables of all nodes have been decided. So each solution has a value
of every such variable.

Only the store of a step matters. What is decided stays decided further down, and after each
candidate the store is the one in which the candidate was tried. So the invariant of a task is
about the store in which it begins (`SearchTask.Ready`), and it does not mention the listener, the
clock, the bound, or which candidates are left out.
-/

import StagedSearch.Proofs.Search.Deadline
import StagedSearch.Proofs.Search.Stores
import StagedSearch.Proofs.Store.Values
import StagedSearch.Proofs.Tree.Arrangement

namespace StagedSearch

/-! ## What is decided in a store -/

namespace Store

variable {s u : Store} {var : VarId}

theorem isSingleton_eq_true_iff : s.isSingleton var = true ↔ s.domains.Decided var := by
  unfold Store.isSingleton DomainTable.Decided
  cases s.domains.get? var with
  | none => simp
  | some d => simp

/-- A decided variable stays decided further down. -/
theorem Descends.isSingleton (descends : s.Descends u) (formed : s.Formed)
    (decided : s.isSingleton var = true) : u.isSingleton var = true :=
  isSingleton_eq_true_iff.2 (descends.decided formed (isSingleton_eq_true_iff.1 decided))

/-- A decided variable is listed with its value. -/
theorem Formed.exists_mem_decidedValues (formed : s.Formed)
    (decided : s.isSingleton var = true) : ∃ value, (var, value) ∈ s.decidedValues := by
  have here := isSingleton_eq_true_iff.1 decided
  obtain ⟨d, found, -⟩ := id here
  obtain ⟨v, declared, -⟩ := formed.declared found
  obtain ⟨value, given⟩ := (formed.decided_iff declared).1 here
  have inside : var.index < s.size := (Array.getElem?_eq_some_iff.1 declared).1
  refine ⟨value, List.mem_filterMap.2 ⟨var, ?_, by rw [given, Option.map_some]⟩⟩
  exact List.mem_map.2 ⟨var.index, List.mem_range.2 inside, rfl⟩

/-- Decided variables are listed in the order of declaration. -/
theorem pairwise_decidedValues (s : Store) :
    s.decidedValues.Pairwise fun first second => first.1.index < second.1.index := by
  have ascending : s.ids.Pairwise fun first second => first.index < second.index := by
    unfold ids
    rw [List.pairwise_map]
    exact List.pairwise_lt_range
  refine ascending.filterMap _ fun first second less entry given entry' given' => ?_
  obtain ⟨value, -, rfl⟩ := Option.map_eq_some_iff.1 given
  obtain ⟨value', -, rfl⟩ := Option.map_eq_some_iff.1 given'
  exact less

end Store

/-! ## Stages -/

namespace SearchTree

def DecidedBefore (t : SearchTree) (id : Nat) (s : Store) : Prop :=
  ∀ (earlier : Nat) (node : SearchNode), earlier < id → t.node? earlier = some node →
    ∀ var ∈ node.vars, s.isSingleton var = true

/-- The variable belongs to a node and is undecided. -/
def Awaits (t : SearchTree) (id : Nat) (s : Store) (var : VarId) : Prop :=
  ∃ node, t.node? id = some node ∧ var ∈ node.vars ∧ s.isSingleton var = false

variable {t : SearchTree} {s u : Store} {id : Nat} {node : SearchNode}

theorem decidedBefore_zero (t : SearchTree) (s : Store) : t.DecidedBefore 0 s :=
  fun _ _ earlier => absurd earlier (Nat.not_lt_zero _)

/-- Once the variables of a node are decided, those before the next node are. -/
theorem DecidedBefore.succ (before : t.DecidedBefore id s) (here : t.node? id = some node)
    (decided : ∀ var ∈ node.vars, s.isSingleton var = true) : t.DecidedBefore (id + 1) s := by
  intro earlier other less there
  by_cases same : earlier = id
  · subst same
    obtain rfl := Option.some.inj (here.symm.trans there)
    exact decided
  · exact before earlier other (by omega) there

theorem DecidedBefore.of_descends (before : t.DecidedBefore id s) (formed : s.Formed)
    (descends : s.Descends u) : t.DecidedBefore id u :=
  fun earlier node less here var member =>
    descends.isSingleton formed (before earlier node less here var member)

end SearchTree

/-- What is decided in the store in which a step is taken. -/
def SearchStep.Staged {ρ : Type} (t : SearchTree) : SearchStep ρ → Prop
  | look _ _ => True
  | decide trial st =>
    t.DecidedBefore trial.id st.store ∧ t.Awaits trial.id st.store trial.choice.var
  | accept _ st => t.DecidedBefore t.size st.store

/-- What is decided in the store in which a task begins. -/
def SearchTask.Ready (t : SearchTree) (s : Store) : SearchTask → Prop
  | label id _ _ => t.DecidedBefore id s
  | trials id _ _ _ _ candidates =>
    t.DecidedBefore id s ∧ ∀ choice ∈ candidates.toList, t.Awaits id s choice.var

namespace SearchTree

variable {ρ : Type} [Reporter ρ] {t : SearchTree} {st : SearchState ρ}
  {steps : List (SearchStep ρ)}

/-- Going on keeps tasks ready. -/
theorem IsChain.carried_ready (chain : t.IsChain) : t.Carried fun s task => task.Ready t s where
  descended s id child depth path node here next decided ready := by
    obtain rfl := chain.eq_succ here next
    exact ready.succ here decided
  branched s id depth path node var size candidates here member undecided listed before := by
    refine ⟨before, fun choice inside => ?_⟩
    obtain ⟨rfl, -⟩ := listed choice inside
    exact ⟨node, here, member, undecided⟩
  passed s id depth path size index candidates rest choice next ready := by
    obtain ⟨before, awaits⟩ := ready
    rw [Candidates.toList_of_next?_eq_some next] at awaits
    exact ⟨before, (List.forall_mem_cons.1 awaits).2⟩
  entered s u id depth path path' size index candidates rest choice _ formed descends _ ready :=
    ready.1.of_descends formed descends

/-- Every step of a run is staged. The stores of its steps are well formed. -/
theorem Follows.staged (chain : t.IsChain) (formed : st.store.Formed)
    (follows : t.Follows st steps) : ∀ step ∈ steps, step.Staged t ∧ step.state.store.Formed := by
  intro step taken
  obtain ⟨stands, formed'⟩ := follows.stands chain.carried_ready formed
    (fun s => t.decidedBefore_zero s) step taken
  refine ⟨?_, formed'⟩
  cases step with
  | look => trivial
  | decide trial st =>
    obtain ⟨candidates, rest, next, before, awaits⟩ := stands
    refine ⟨before, awaits _ ?_⟩
    rw [Candidates.toList_of_next?_eq_some next]
    exact List.mem_cons_self
  | accept id st =>
    obtain ⟨node, depth, path, here, last, decided, before⟩ := stands
    have all := before.succ here decided
    rwa [chain.succ_eq_size here last] at all

end SearchTree

namespace SearchSpec

variable {ρ : Type} [Reporter ρ] {spec : SearchSpec} {names : Names} {s : Store}
  {context : Context ρ} {t : SearchTree} {st : SearchState ρ}

/-- A tree that was built is searched stage by stage, from whatever store, context and accounts
the run begins: a decision at a node is about an undecided variable of that node, when all
variables of the nodes before it are decided. When a store is handed over, the variables of all
nodes are decided, and its solution has a value of each of them, in the order of declaration. -/
theorem staged_of_build (built : (spec.build names s context).outcome = .ok (.tree t))
    (reached : st.store.Reachable) :
    ∃ (steps : List (SearchStep ρ)) (solutions : List Solution), t.Reports st steps solutions ∧
      (∀ trial st', .decide trial st' ∈ steps →
        t.DecidedBefore trial.id st'.store ∧ t.Awaits trial.id st'.store trial.choice.var) ∧
      (∀ id st', .accept id st' ∈ steps →
        ∀ node ∈ t.nodes, ∀ var ∈ node.vars, st'.store.isSingleton var = true) ∧
      ∀ solution ∈ solutions,
        (∀ node ∈ t.nodes, ∀ var ∈ node.vars, ∃ value, (var, value) ∈ solution.values) ∧
        solution.values.Pairwise fun first second => first.1.index < second.1.index := by
  obtain ⟨stages, -, objective, -, -, -, rfl, -⟩ := exists_of_build built
  have chain := SearchTree.isChain_ofStages (objective.map Objective.bound) stages
  generalize SearchTree.ofStages (objective.map Objective.bound) stages = t at chain ⊢
  obtain ⟨steps, follows⟩ := t.exists_follows st
  have staged := follows.staged chain reached.formed
  have decided (id : NodeId) (st' : SearchState ρ) (accepts : .accept id st' ∈ steps)
      (node : SearchNode) (member : node ∈ t.nodes) (var : VarId) (own : var ∈ node.vars) :
      st'.store.isSingleton var = true := by
    obtain ⟨place, here⟩ := Array.mem_iff_getElem?.1 member
    have before : t.DecidedBefore t.size st'.store := (staged _ accepts).1
    exact before place node (SearchTree.lt_size_of_node? here) here var own
  refine ⟨steps, _, follows.reports, fun trial st' decides => (staged _ decides).1, decided,
    fun solution member => ?_⟩
  have values : solution.values ∈ (SearchStep.accepted steps).map Store.decidedValues := by
    rw [← st.context.listener.values_solutions]
    exact List.mem_map_of_mem member
  obtain ⟨u, handed, same⟩ := List.mem_map.1 values
  obtain ⟨step, taken, hands⟩ := List.mem_filterMap.1 handed
  rw [← same]
  refine ⟨fun node inside var own => ?_, u.pairwise_decidedValues⟩
  cases step with
  | look | decide => cases hands
  | accept id st' =>
    obtain rfl : st'.store = u := Option.some.inj hands
    exact (staged _ taken).2.exists_mem_decidedValues (decided id st' taken node inside var own)

/-- Two stages, the later variable first: all three solutions list both variables in the order of
declaration. -/
theorem staged_of_build_reversed :
    ∃ (spec : SearchSpec) (s : Store) (t : SearchTree) (st : SearchState NoReporter)
      (steps : List (SearchStep NoReporter)) (solutions : List Solution),
      (spec.build Names.empty s
        (Context.ofListener (Listener.all none) : Context NoReporter)).outcome = .ok (.tree t) ∧
      st.store.Reachable ∧ t.Reports st steps solutions ∧ solutions.length = 3 ∧
      (∀ trial st', .decide trial st' ∈ steps →
        t.DecidedBefore trial.id st'.store ∧ t.Awaits trial.id st'.store trial.choice.var) ∧
      ∀ solution ∈ solutions,
        (∃ first second, (⟨0⟩, first) ∈ solution.values ∧ (⟨1⟩, second) ∈ solution.values) ∧
        solution.values.Pairwise fun first second => first.1.index < second.1.index := by
  let s := StoreOperation.applyAll Store.empty
    [.declareInt "x" 0 2, .declareInt "y" 0 2, .impose (.lessThan ⟨0⟩ ⟨1⟩)]
  let spec : SearchSpec := ⟨.satisfy, none,
    some (.seq [.leaf .int ⟨[⟨1⟩], some .inputOrder, some .max, .complete⟩,
      .leaf .int ⟨[⟨0⟩], some .inputOrder, some .max, .complete⟩])⟩
  let context : Context NoReporter := Context.ofListener (Listener.all none)
  let t := SearchTree.ofStages none
    [⟨⟨.int, [⟨1⟩], .inputOrder, .max, .complete, .descending⟩, .explicit⟩,
      ⟨⟨.int, [⟨0⟩], .inputOrder, .max, .complete, .descending⟩, .explicit⟩]
  have reached : s.Reachable := Store.Reachable.empty.applyAll (by decide)
  have built : (spec.build Names.empty s context).outcome = .ok (.tree t) := rfl
  let st : SearchState NoReporter := ⟨Progress.ofTree t, s, context⟩
  have begins : st.store.Reachable := reached
  obtain ⟨steps, solutions, reports, decides, -, values⟩ := staged_of_build built begins
  have count : (t.run st).2.context.listener.count = 3 := by decide +kernel
  have length := reports.reports.count.symm.trans count
  rw [show st.context.listener.count = 0 from rfl, Nat.zero_add] at length
  refine ⟨spec, s, t, st, steps, solutions, built, reached, reports, length, decides,
    fun solution member => ?_⟩
  obtain ⟨given, ordered⟩ := values solution member
  have listed (var : VarId) (claims : var ∈ spec.claimed) :
      ∃ value, (var, value) ∈ solution.values := by
    obtain ⟨node, inside, own⟩ := (exists_mem_vars_of_build built).2 (.inl claims)
    exact given node inside var own
  obtain ⟨first, here⟩ := listed ⟨0⟩ (by decide)
  obtain ⟨second, there⟩ := listed ⟨1⟩ (by decide)
  exact ⟨⟨first, second, here, there⟩, ordered⟩

end SearchSpec

end StagedSearch
