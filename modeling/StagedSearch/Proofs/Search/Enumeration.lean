/-
# Searching for all solutions

A complete run for the goal to satisfy, over nodes that decide every variable, reports the
satisfying assignments of the store: each of them, once, and nothing else. Neither the orders
of variables and values nor the stages matter for this; they only settle the order of the
reports.

A leaf has everything decided, so it shows one assignment, and stability makes it a satisfying
one. A satisfying assignment is shown by a settled table, which is below some leaf, and there
is only one table below a leaf in which everything is decided.
-/

import StagedSearch.Proofs.Search.Complete
import StagedSearch.Proofs.Store.Extension
import StagedSearch.Proofs.Store.Values

namespace StagedSearch

namespace Store

variable {s u : Store} {bound : Option VarId} {vars : List VarId} {assignment : Assignment}
  {leaves : List Store}

theorem Descends.declaration?_eq (descends : s.Descends u) (var : VarId) :
    u.declaration? var = s.declaration? var := by
  unfold declaration?
  rw [descends.declarations]

/-- What a store has decided has the same value further down. -/
theorem Descends.value?_eq (descends : s.Descends u) (formed : s.Formed) {var : VarId}
    (decided : s.domains.Decided var) : u.value? var = s.value? var := by
  obtain ⟨d, here, single⟩ := decided
  unfold value?
  rw [descends.declaration?_eq, descends.get?_of_decided formed here single, here]

/-- A leaf in which everything is decided has come to a satisfying assignment. -/
theorem Leaf.satisfies (leaf : Leaf bound vars s u) (formed : s.Formed)
    (decided : ∀ var, var.index < u.size → u.domains.Decided var) : s.Satisfies u.value? :=
  formed.satisfies leaf.descends.formed leaf.descends.declarations leaf.descends.within leaf.stable
    decided

/-- What a table below a leaf shows at a decided variable is what the leaf has come to there. -/
theorem Leaf.value?_eq_of_decided (leaf : Leaf bound vars s u) (formed : s.Formed)
    (satisfies : s.Satisfies assignment) {p : DomainTable} (shows_ : p.Shows assignment)
    (sound : p.Sound) (filled : p.Filled) (within : p.Within u.domains) {var : VarId}
    (decided : u.domains.Decided var) : u.value? var = assignment var := by
  obtain ⟨e, there, single⟩ := decided
  rcases formed.admitsAt_cases (satisfies.admits var) with
    ⟨none, -⟩ | ⟨v, d, value, declared, -, given, takes, -⟩
  · obtain ⟨d, here, -⟩ := leaf.descends.within.larger there
    cases none.symm.trans here
  · have declared' := (leaf.descends.declaration?_eq var).trans declared
    have same := within.get?_eq_of_isSingleton sound.canonical filled
      leaf.descends.formed.canonical there single
    rw [shows_ var, given] at same
    rw [given, leaf.descends.formed.value?_eq_some_iff declared', there, ← same]
    exact ⟨takes, rfl⟩

/-- What a table below a decided leaf shows is what the leaf has come to. -/
theorem Leaf.value?_eq (leaf : Leaf bound vars s u) (formed : s.Formed)
    (decided : ∀ var, var.index < u.size → u.domains.Decided var)
    (satisfies : s.Satisfies assignment) {p : DomainTable} (shows_ : p.Shows assignment)
    (sound : p.Sound) (filled : p.Filled) (within : p.Within u.domains) :
    u.value? = assignment := by
  funext var
  rcases Nat.lt_or_ge var.index u.size with inside | outside
  · exact leaf.value?_eq_of_decided formed satisfies shows_ sound filled within (decided var inside)
  · have size : u.size = s.size := congrArg Array.size leaf.descends.declarations
    rw [value?_of_declaration?_none (declaration?_of_le outside),
      satisfies.eq_none (size ▸ outside)]

/-- Leaves that differ at labelled variables have come to different assignments. -/
theorem nodup_value? (leaf : ∀ u ∈ leaves, Leaf bound vars s u)
    (declared : ∀ var ∈ vars, ∃ v, s.declaration? var = some v)
    (apart : leaves.Pairwise fun u w => ∃ var ∈ vars, u.domains.get? var ≠ w.domains.get? var) :
    (leaves.map Store.value?).Nodup := by
  refine List.pairwise_map.2 (apart.imp_of_mem fun {u w} first second different same => ?_)
  obtain ⟨var, member, different⟩ := different
  obtain ⟨v, declared⟩ := declared var member
  have left := leaf u first
  have right := leaf w second
  have declaredLeft := (left.descends.declaration?_eq var).trans declared
  have declaredRight := (right.descends.declaration?_eq var).trans declared
  obtain ⟨value, given⟩ :=
    (left.descends.formed.decided_iff declaredLeft).1 (left.decided var member)
  have given' : w.value? var = some value := (congrFun same var).symm.trans given
  apply different
  rw [((left.descends.formed.value?_eq_some_iff declaredLeft).1 given).2,
    ((right.descends.formed.value?_eq_some_iff declaredRight).1 given').2]

/-- Leaves that cover what lies below a store, and in which everything is decided, show the
assignments that satisfy the store. -/
theorem Covers.satisfies_iff (covers : s.Covers vars none none leaves) (formed : s.Formed)
    (leaf : ∀ u ∈ leaves, Leaf none vars s u)
    (decided : ∀ u ∈ leaves, ∀ var : VarId, var.index < u.size → u.domains.Decided var)
    (declared : ∀ var ∈ vars, ∃ v, s.declaration? var = some v) :
    s.Satisfies assignment ↔ assignment ∈ leaves.map Store.value? := by
  rw [List.mem_map]
  constructor
  · intro satisfies
    obtain ⟨p, shows_, settled, within⟩ := satisfies.exists_settled formed
    have single (var : VarId) (member : var ∈ vars) : p.Decided var := by
      obtain ⟨v, declared⟩ := declared var member
      exact formed.decided_of_shows shows_ within declared
    obtain ⟨u, member, below⟩ := covers p settled within single (p.improves_of_bound_none _)
    exact ⟨u, member, (leaf u member).value?_eq formed (decided u member) satisfies shows_
      settled.sound settled.filled below⟩
  · rintro ⟨u, member, rfl⟩
    exact (leaf u member).satisfies formed (decided u member)

end Store

namespace SearchTree

variable {t : SearchTree} {bound : Option VarId} {declarations : Array Variable}

/-- Every variable that a node labels is declared. -/
theorem Searchable.declared (searchable : t.Searchable bound declarations) {var : VarId}
    (member : var ∈ t.varsFrom 0) : ∃ v, declarations[var.index]? = some v := by
  obtain ⟨node, inside, labels⟩ := List.mem_flatMap.1 member
  obtain ⟨id, here⟩ := List.mem_iff_getElem?.1 inside
  have found : t.node? id = some node := by simpa [node?] using here
  obtain ⟨v, declared, -⟩ := searchable.takes id node found var labels
  exact ⟨v, declared⟩

end SearchTree

namespace SearchSpec

variable {ρ : Type} [Reporter ρ] {spec : SearchSpec} {names : Names} {s : Store}
  {context : Context ρ} {t : SearchTree}

/-- The run of a thorough satisfaction is complete on the store as it was. -/
theorem exists_completes_of_satisfy (formed : s.Formed) (goal : spec.goal = .satisfy)
    (thorough : spec.Thorough names s context t) :
    ∃ leaves,
      (t.run ((spec.build names s context).start t)).2.context.listener =
        context.listener.acceptAll leaves ∧
      (∀ u ∈ leaves, Store.Leaf none (t.varsFrom 0) s u) ∧
      (leaves.Pairwise fun u w => ∃ var ∈ t.varsFrom 0,
        u.domains.get? var ≠ w.domains.get? var) ∧
      s.Covers (t.varsFrom 0) none none leaves ∧
      ∀ var ∈ t.varsFrom 0, ∃ v, s.declaration? var = some v := by
  obtain ⟨objective, leaves, wired, ready, completes⟩ := exists_completes_of_build formed thorough
  rw [wireCost_satisfy goal] at wired
  obtain ⟨rfl, store⟩ := Prod.mk.inj (Except.ok.inj wired)
  obtain ⟨explored, covers, -⟩ := completes
  have unchanged : ((spec.build names s context).start t).store = s := store.symm
  have leaf := explored.leaf
  rw [unchanged] at leaf covers
  refine ⟨leaves, ?_, leaf, explored.apart, ?_, fun var member => ?_⟩
  · rw [← ready.listener]
    exact explored.listener
  · intro p settled within decided _
    exact covers p settled within decided (DomainTable.improves_of_bound_none p _)
  · obtain ⟨v, declared⟩ := ready.searchable.declared member
    rw [← store] at declared
    exact ⟨v, declared⟩

/-- A thorough search that labels all variables reports each satisfying assignment once, and
nothing else. -/
theorem reports_satisfying_of_build (reached : s.Reachable) (goal : spec.goal = .satisfy)
    (thorough : spec.Thorough names s context t)
    (labels : ∀ var, var.index < s.size → var ∈ t.vars) :
    ∃ solutions : List Solution,
      context.listener.Reports
        (t.run ((spec.build names s context).start t)).2.context.listener solutions ∧
      (solutions.map Solution.value?).Nodup ∧
      ∀ assignment, s.Satisfies assignment ↔ assignment ∈ solutions.map Solution.value? := by
  have formed := reached.formed
  obtain ⟨leaves, listener, leaf, apart, covers, declared⟩ :=
    exists_completes_of_satisfy formed goal thorough
  have decided (u : Store) (member : u ∈ leaves) (var : VarId) (inside : var.index < u.size) :
      u.domains.Decided var := by
    have here := leaf u member
    refine here.decided var (SearchTree.mem_vars.1 (labels var ?_))
    rwa [Store.size, here.descends.declarations] at inside
  refine ⟨context.listener.solutions leaves, ?_, ?_, fun assignment => ?_⟩
  · rw [listener]
    exact Listener.reports_acceptAll _ leaves
  · rw [Listener.value?_solutions]
    exact Store.nodup_value? leaf declared apart
  · rw [Listener.value?_solutions, List.mem_map]
    constructor
    · intro satisfies
      obtain ⟨p, shows_, settled, within⟩ := satisfies.exists_settled formed
      have single (var : VarId) (member : var ∈ t.varsFrom 0) : p.Decided var := by
        obtain ⟨v, declared⟩ := declared var member
        exact formed.decided_of_shows shows_ within declared
      obtain ⟨u, member, below⟩ := covers p settled within single
        (DomainTable.improves_of_bound_none p _)
      exact ⟨u, member, (leaf u member).value?_eq formed (decided u member) satisfies shows_
        settled.sound settled.filled below⟩
    · rintro ⟨u, member, rfl⟩
      exact (leaf u member).satisfies formed (decided u member)

/-- An integer and a boolean that differ, labelled in two stages, the second one at random. -/
theorem reports_satisfying_of_build_pair :
    ∃ (s : Store) (spec : SearchSpec) (context : Context NoReporter) (t : SearchTree)
      (solutions : List Solution), s.Reachable ∧
      spec.Thorough Names.empty s context t ∧
      context.listener.Reports
        (t.run ((spec.build Names.empty s context).start t)).2.context.listener solutions ∧
      (solutions.map Solution.value?).Nodup ∧
      (∀ assignment, s.Satisfies assignment ↔ assignment ∈ solutions.map Solution.value?) ∧
      solutions ≠ [] := by
  let s := StoreOperation.applyAll Store.empty
    [.declareInt "x" 0 2, .declareBool "b", .impose (.notEqual ⟨0⟩ ⟨1⟩)]
  let directive : SearchDirective :=
    .seq [.leaf .int ⟨[⟨0⟩], some .inputOrder, some .max, .complete⟩,
      .leaf .bool ⟨[⟨1⟩], some .firstFail, some .random, .complete⟩]
  let context : Context NoReporter := Context.ofListener (Listener.all none)
  let seed := (Generator.ofSeed 0).nextNumber.1
  let t := SearchTree.ofStages none
    [⟨⟨.int, [⟨0⟩], .inputOrder, .max, .complete, .descending⟩, .explicit⟩,
      ⟨⟨.bool, [⟨1⟩], .firstFail, .random, .complete, .random (Generator.ofSeed seed)⟩, .explicit⟩]
  have reached : s.Reachable := by
    apply Store.Reachable.empty.applyAll
    simp [StoreOperation.InRange, Signed64.InRange, Signed64.least, Signed64.greatest]
  have thorough : Thorough ⟨.satisfy, none, some directive⟩ Names.empty s context t :=
    ⟨rfl, SearchTree.complete_ofStages (by simp), rfl,
      Listener.endless_of_reporter_none rfl rfl rfl⟩
  have labels : ∀ var : VarId, var.index < s.size → var ∈ t.vars := by
    have vars : t.vars = [⟨0⟩, ⟨1⟩] := rfl
    rintro ⟨i⟩ inside
    have two : i < 2 := inside
    rw [vars]
    obtain rfl | rfl : i = 0 ∨ i = 1 := by omega
    · simp
    · simp
  obtain ⟨solutions, reports, once, exactly⟩ :=
    reports_satisfying_of_build reached rfl thorough labels
  have satisfies : s.Satisfies fun var =>
      if var = ⟨0⟩ then some (.int 2) else if var = ⟨1⟩ then some (.bool true) else none := by
    refine ⟨?_, ?_⟩
    · rintro ⟨_ | _ | i⟩
      · exact ⟨.int 2, rfl, IntDomain.mem_interval.2 (by decide : (0 : Int) ≤ 2 ∧ (2 : Int) ≤ 2)⟩
      · exact ⟨.bool true, rfl,
          IntDomain.mem_interval.2 (by decide : (0 : Int) ≤ 1 ∧ (1 : Int) ≤ 1)⟩
      · rfl
    · intro imposed member
      obtain rfl : imposed = ⟨0, .notEqual ⟨0⟩ ⟨1⟩⟩ := List.mem_singleton.1 member
      exact Constraint.holds_notEqual_iff.2 ⟨2, 1, rfl, rfl, by decide⟩
  refine ⟨s, _, context, t, solutions, reached, thorough, reports, once, exactly, ?_⟩
  rintro rfl
  simpa using (exactly _).1 satisfies

end SearchSpec

end StagedSearch
