/-
# Searches that do not depend on their heuristics

Two thorough searches that label the same variables of a store report the same solutions, in
whatever order. Some variables may be labelled by no node: the solutions agree on what
propagation has made of those as well, because a leaf is the greatest stable table with its
values of the labelled variables, and this does not mention the search. The same fact says
which values of the labelled variables are reported: those that can be fixed at once, without
search.

A domain must not be empty from the start. Propagation does not look at a domain that no
constraint reads, so it would be carried along, and no stable table would be a settled one.
-/

import StagedSearch.Proofs.Search.Enumeration
import StagedSearch.Proofs.Search.Fixing

namespace StagedSearch

/-- Whether an assignment gives certain values to some variables. -/
def Assignment.gives (vars : List VarId) (values : VarId → Value) (assignment : Assignment) :
    Bool :=
  vars.all fun var => assignment var == some (values var)

theorem Assignment.gives_iff {vars : List VarId} {values : VarId → Value}
    {assignment : Assignment} :
    gives vars values assignment = true ↔ ∀ var ∈ vars, assignment var = some (values var) := by
  simp [gives]

namespace Store

variable {s u w : Store} {vars others : List VarId} {leaves first second : List Store}

/-- Below a store without emptied domains a leaf is settled. -/
theorem Leaf.settled (leaf : Leaf none vars s u) (filled : s.domains.Filled) :
    u.domains.Settled s.rules where
  sound := leaf.descends.formed.sound
  filled var e there := by
    obtain ⟨d, here, -⟩ := leaf.descends.within.larger there
    exact leaf.descends.hasValue var d e here there (filled var d here)
  stable := leaf.stable

/-- A settled table within a leaf has the domains of the leaf where that has decided. -/
theorem Leaf.get?_eq (leaf : Leaf none vars s u) {p : DomainTable} (settled : p.Settled s.rules)
    (within : p.Within u.domains) {var : VarId} (member : var ∈ vars) :
    p.get? var = u.domains.get? var := by
  obtain ⟨d, here, single⟩ := leaf.decided var member
  rw [here]
  exact within.get?_eq_of_isSingleton settled.sound.canonical settled.filled
    leaf.descends.formed.canonical here single

/-- Of two leaves for the same variables, one within the other, both have the same domains. -/
theorem Leaf.domains_eq (left : Leaf none vars s u) (right : Leaf none others s w)
    (filled : s.domains.Filled) (same : ∀ var ∈ vars, var ∈ others)
    (within : u.domains.Within w.domains) : u.domains.domains = w.domains.domains := by
  apply within.domains_eq left.descends.formed.canonical right.descends.formed.canonical
  refine left.greatest w.domains (right.settled filled) right.descends.within ?_ nofun
  intro var member
  exact (right.get?_eq (left.settled filled) within (same var member)).symm

/-- Leaves that differ at labelled variables have different domains. -/
theorem nodup_domains
    (apart : leaves.Pairwise fun u w => ∃ var ∈ vars, u.domains.get? var ≠ w.domains.get? var) :
    (leaves.map fun u => u.domains.domains).Nodup := by
  refine List.pairwise_map.2 (apart.imp fun different same => ?_)
  obtain ⟨var, -, different⟩ := different
  exact different (congrFun (DomainTable.get?_congr same) var)

/-- Two searches with the same variables come to the same leaves, up to order. -/
theorem domains_perm (filled : s.domains.Filled) (same : ∀ var, var ∈ vars ↔ var ∈ others)
    (leaf : ∀ u ∈ first, Leaf none vars s u) (leaf' : ∀ w ∈ second, Leaf none others s w)
    (apart : first.Pairwise fun u w => ∃ var ∈ vars, u.domains.get? var ≠ w.domains.get? var)
    (apart' : second.Pairwise fun u w => ∃ var ∈ others, u.domains.get? var ≠ w.domains.get? var)
    (covers : s.Covers vars none none first) (covers' : s.Covers others none none second) :
    (first.map fun u => u.domains.domains).Perm (second.map fun u => u.domains.domains) := by
  have nodup := nodup_domains apart
  have nodup' := nodup_domains apart'
  refine (List.perm_ext_iff_of_nodup nodup nodup').2 fun domains => ?_
  simp only [List.mem_map]
  constructor
  · rintro ⟨u, member, rfl⟩
    have here := leaf u member
    obtain ⟨w, member', within⟩ := covers' u.domains (here.settled filled)
      here.descends.within (fun var inside => here.decided var ((same var).2 inside)) nofun
    exact ⟨w, member', (here.domains_eq (leaf' w member') filled
      (fun var => (same var).1) within).symm⟩
  · rintro ⟨w, member, rfl⟩
    have here := leaf' w member
    obtain ⟨u, member', within⟩ := covers w.domains (here.settled filled)
      here.descends.within (fun var inside => here.decided var ((same var).1 inside)) nofun
    exact ⟨u, member', (here.domains_eq (leaf u member') filled
      (fun var => (same var).2) within).symm⟩

/-- What is decided is read off the declarations and the domains. -/
theorem decidedValues_eq (declarations : u.declarations = s.declarations) :
    u.decidedValues =
      { s with domains := { s.domains with domains := u.domains.domains } }.decidedValues := by
  unfold decidedValues ids size
  rw [declarations]
  refine List.filterMap_congr fun var _ => ?_
  simp only [value?, declaration?, declarations]
  rfl

theorem map_decidedValues_eq (leaf : ∀ u ∈ leaves, Leaf none vars s u) :
    leaves.map decidedValues = (leaves.map fun u => u.domains.domains).map fun domains =>
      { s with domains := { s.domains with domains } }.decidedValues := by
  rw [List.map_map]
  refine List.map_congr_left fun u member => ?_
  exact decidedValues_eq (leaf u member).descends.declarations

/-! ## Counting what is reported -/

theorem countP_eq_ite {α : Type} {p : α → Bool} {list : List α}
    (apart : list.Pairwise fun a b => ¬ (p a = true ∧ p b = true)) :
    list.countP p = if ∃ a ∈ list, p a = true then 1 else 0 := by
  induction list with
  | nil => simp
  | cons a rest ih =>
    obtain ⟨alone, apart⟩ := List.pairwise_cons.1 apart
    rw [List.countP_cons, ih apart]
    by_cases own : p a = true
    · have none : ¬ ∃ b ∈ rest, p b = true := fun ⟨b, member, other⟩ =>
        alone b member ⟨own, other⟩
      rw [if_neg none, if_pos own, if_pos ⟨a, by simp, own⟩]
    · simp [own]

/-- Values of the labelled variables occur in one leaf, if they can be fixed, and else in
none. -/
theorem countP_leaves (formed : s.Formed) (filled : s.domains.Filled)
    (leaf : ∀ u ∈ leaves, Leaf none vars s u)
    (apart : leaves.Pairwise fun u w => ∃ var ∈ vars, u.domains.get? var ≠ w.domains.get? var)
    (covers : s.Covers vars none none leaves) {labelled : List VarId}
    (same : ∀ var, var ∈ labelled ↔ var ∈ vars) {values : VarId → Value}
    (takes : ∀ var ∈ labelled, ∃ v, s.declaration? var = some v ∧ v.kind.Takes (values var)) :
    leaves.countP (Assignment.gives labelled values ∘ Store.value?) =
      if s.fix labelled values then 1 else 0 := by
  have gives_iff (u : Store) (member : u ∈ leaves) :
      Assignment.gives labelled values u.value? = true ↔
        ∀ var ∈ labelled, u.domains.get? var = some (values var).domain := by
    rw [Assignment.gives_iff]
    refine forall₂_congr fun var inside => ?_
    obtain ⟨v, declared, typed⟩ := takes var inside
    have here := leaf u member
    have declared' := (here.descends.declaration?_eq var).trans declared
    rw [here.descends.formed.value?_eq_some_iff declared']
    exact and_iff_right typed
  rw [countP_eq_ite]
  · congr 1
    rw [fix_eq_true_iff formed filled takes, eq_iff_iff]
    constructor
    · rintro ⟨u, member, labels⟩
      exact ⟨u.domains, (leaf u member).settled filled, (leaf u member).descends.within,
        (gives_iff u member).1 labels⟩
    · rintro ⟨p, settled, within, fixed⟩
      have decided : ∀ var ∈ vars, p.Decided var := fun var inside =>
        ⟨_, fixed var ((same var).2 inside), (values var).isSingleton_domain⟩
      obtain ⟨u, member, below⟩ := covers p settled within decided (p.improves_of_bound_none _)
      refine ⟨u, member, (gives_iff u member).2 fun var inside => ?_⟩
      rw [← (leaf u member).get?_eq settled below ((same var).1 inside)]
      exact fixed var inside
  · refine apart.imp_of_mem fun {u w} first second different both => ?_
    obtain ⟨var, inside, different⟩ := different
    apply different
    rw [(gives_iff u first).1 both.1 var ((same var).2 inside),
      (gives_iff w second).1 both.2 var ((same var).2 inside)]

end Store

namespace SearchSpec

variable {ρ ρ' : Type} [Reporter ρ] [Reporter ρ'] {spec spec' : SearchSpec} {names names' : Names}
  {s : Store} {context : Context ρ} {context' : Context ρ'} {t t' : SearchTree}

/-- Two thorough searches that label the same variables report the same solutions up to order,
and of these there is one with given values of the labelled variables if the values can be
fixed at once, and else there is none. -/
theorem reports_perm_of_build (reached : s.Reachable) (filled : s.domains.Filled)
    (goal : spec.goal = .satisfy) (thorough : spec.Thorough names s context t)
    (goal' : spec'.goal = .satisfy) (thorough' : spec'.Thorough names' s context' t')
    (same : ∀ var, var ∈ t.vars ↔ var ∈ t'.vars) :
    ∃ solutions solutions' : List Solution,
      context.listener.Reports
        (t.run ((spec.build names s context).start t)).2.context.listener solutions ∧
      context'.listener.Reports
        (t'.run ((spec'.build names' s context').start t')).2.context.listener solutions' ∧
      (solutions.map Solution.values).Perm (solutions'.map Solution.values) ∧
      ∀ values : VarId → Value,
        (∀ var ∈ t.vars, ∃ v, s.declaration? var = some v ∧ v.kind.Takes (values var)) →
        solutions.countP (Assignment.gives t.vars values ∘ Solution.value?) =
          if s.fix t.vars values then 1 else 0 := by
  have formed := reached.formed
  obtain ⟨leaves, listener, leaf, apart, covers, -⟩ :=
    exists_completes_of_satisfy formed goal thorough
  obtain ⟨leaves', listener', leaf', apart', covers', -⟩ :=
    exists_completes_of_satisfy formed goal' thorough'
  refine ⟨context.listener.solutions leaves, context'.listener.solutions leaves', ?_, ?_, ?_, ?_⟩
  · rw [listener]
    exact Listener.reports_acceptAll _ leaves
  · rw [listener']
    exact Listener.reports_acceptAll _ leaves'
  · rw [Listener.values_solutions, Listener.values_solutions, Store.map_decidedValues_eq leaf,
      Store.map_decidedValues_eq leaf']
    refine (Store.domains_perm filled (fun var => ?_) leaf leaf' apart apart' covers
      covers').map _
    rw [← SearchTree.mem_vars, ← SearchTree.mem_vars]
    exact same var
  · intro values takes
    rw [← List.countP_map, Listener.value?_solutions, List.countP_map]
    exact Store.countP_leaves formed filled leaf apart covers (fun _ => SearchTree.mem_vars) takes

/-- Two terms and their sum, which no node labels. One search labels the terms in one stage,
the other one in two stages, the other way round and at random. -/
theorem reports_perm_of_build_sum :
    ∃ (s : Store) (spec spec' : SearchSpec) (context context' : Context NoReporter)
      (t t' : SearchTree) (solutions solutions' : List Solution), s.Reachable ∧
      s.domains.Filled ∧ spec.Thorough Names.empty s context t ∧
      spec'.Thorough Names.empty s context' t' ∧ (∀ var, var ∈ t.vars ↔ var ∈ t'.vars) ∧
      context.listener.Reports
        (t.run ((spec.build Names.empty s context).start t)).2.context.listener solutions ∧
      context'.listener.Reports
        (t'.run ((spec'.build Names.empty s context').start t')).2.context.listener solutions' ∧
      (solutions.map Solution.values).Perm (solutions'.map Solution.values) ∧
      solutions.countP (Assignment.gives t.vars (fun _ => .int 1) ∘ Solution.value?) = 1 := by
  let s := StoreOperation.applyAll Store.empty
    [.declareInt "x" 0 1, .declareInt "y" 0 1, .declareInt "sum" 0 2,
      .impose (.sumEquals [⟨0⟩, ⟨1⟩] ⟨2⟩)]
  let spec : SearchSpec :=
    ⟨.satisfy, none, some (.leaf .int ⟨[⟨0⟩, ⟨1⟩], some .firstFail, some .min, .complete⟩)⟩
  let spec' : SearchSpec :=
    ⟨.satisfy, none, some (.seq [.leaf .int ⟨[⟨1⟩], some .largest, some .random, .complete⟩,
      .leaf .int ⟨[⟨0⟩], some .inputOrder, some .max, .complete⟩])⟩
  let context : Context NoReporter := Context.ofListener (Listener.all none)
  let seed := (Generator.ofSeed 0).nextNumber.1
  let t := SearchTree.ofStages none
    [⟨⟨.int, [⟨0⟩, ⟨1⟩], .firstFail, .min, .complete, .ascending⟩, .explicit⟩]
  let t' := SearchTree.ofStages none
    [⟨⟨.int, [⟨1⟩], .largest, .random, .complete, .random (Generator.ofSeed seed)⟩, .explicit⟩,
      ⟨⟨.int, [⟨0⟩], .inputOrder, .max, .complete, .descending⟩, .explicit⟩]
  have reached : s.Reachable := by
    apply Store.Reachable.empty.applyAll
    simp [StoreOperation.InRange, Signed64.InRange, Signed64.least, Signed64.greatest]
  have filled : s.domains.Filled := by
    intro var d here
    have member : d ∈ s.domains.domains := Array.mem_of_getElem? here
    have all : ∀ e ∈ s.domains.domains,
        e = .int (IntDomain.interval 0 1) ∨ e = .int (IntDomain.interval 0 2) := by decide
    rcases all d member with rfl | rfl
    · exact ⟨0, by decide⟩
    · exact ⟨0, by decide⟩
  have thorough : spec.Thorough Names.empty s context t :=
    ⟨rfl, SearchTree.complete_ofStages (by simp), rfl,
      Listener.endless_of_reporter_none rfl rfl rfl⟩
  have thorough' : spec'.Thorough Names.empty s context t' :=
    ⟨rfl, SearchTree.complete_ofStages (by simp), rfl,
      Listener.endless_of_reporter_none rfl rfl rfl⟩
  have labels : t.vars = [⟨0⟩, ⟨1⟩] := rfl
  have labels' : t'.vars = [⟨0⟩, ⟨1⟩] := rfl
  have same : ∀ var, var ∈ t.vars ↔ var ∈ t'.vars := by
    intro var
    rw [labels, labels']
  have takes : ∀ var ∈ [(⟨0⟩ : VarId), ⟨1⟩], ∃ v, s.declaration? var = some v ∧
      v.kind.Takes (.int 1) := by
    simp only [List.forall_mem_cons]
    exact ⟨⟨_, rfl, trivial⟩, ⟨_, rfl, trivial⟩, by simp⟩
  have satisfies : s.Satisfies fun var =>
      if var = ⟨0⟩ then some (.int 1) else if var = ⟨1⟩ then some (.int 1)
      else if var = ⟨2⟩ then some (.int 2) else none := by
    refine ⟨?_, ?_⟩
    · rintro ⟨_ | _ | _ | i⟩
      · exact ⟨.int 1, rfl, IntDomain.mem_interval.2 (by decide : (0 : Int) ≤ 1 ∧ (1 : Int) ≤ 1)⟩
      · exact ⟨.int 1, rfl, IntDomain.mem_interval.2 (by decide : (0 : Int) ≤ 1 ∧ (1 : Int) ≤ 1)⟩
      · exact ⟨.int 2, rfl, IntDomain.mem_interval.2 (by decide : (0 : Int) ≤ 2 ∧ (2 : Int) ≤ 2)⟩
      · rfl
    · intro imposed member
      obtain rfl : imposed = ⟨0, .sumEquals [⟨0⟩, ⟨1⟩] ⟨2⟩⟩ := List.mem_singleton.1 member
      exact Constraint.holds_sumEquals_iff.2 ⟨[1, 1], rfl, rfl⟩
  have fixes : s.fix [⟨0⟩, ⟨1⟩] (fun _ => .int 1) = true := by
    obtain ⟨p, shows_, settled, within⟩ := satisfies.exists_settled reached.formed
    refine (s.fix_eq_true_iff reached.formed filled takes).2 ⟨p, settled, within, ?_⟩
    simp only [List.forall_mem_cons]
    exact ⟨shows_ ⟨0⟩, shows_ ⟨1⟩, by simp⟩
  obtain ⟨solutions, solutions', reports, reports', perm, count⟩ :=
    reports_perm_of_build reached filled rfl thorough rfl thorough' same
  refine ⟨s, spec, spec', context, context, t, t', solutions, solutions', reached, filled,
    thorough, thorough', same, reports, reports', perm, ?_⟩
  have once := count (fun _ => .int 1) (labels ▸ takes)
  rwa [labels, fixes] at once

end SearchSpec

end StagedSearch
