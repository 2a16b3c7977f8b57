/-
# The order of discovery

Nodes that decide their variables in the order of their lists, each from its least value on, find
solutions in lexicographic order along the lists of all nodes; from the greatest value on they find
them in the opposite order.

Variables that propagation has decided are skipped, so where two solutions part depends on the way
to them. But they part below different candidates of one decision. Everything listed before its
variable was decided there, and has the same values in both; the variable has the values of the
candidates. Stores that are handed over are compared in this form (`Assignment.Diverges`), in which
the lists of nodes that were decided earlier can be put in front. A deadline, a bound or a decorator
leaves stores out, and that does not change how the others compare.

A thorough search for all solutions of a satisfaction leaves none of them out. So the first one
that it reports is the least one, or the greatest one.
-/

import StagedSearch.Proofs.Search.Exhausted
import StagedSearch.Proofs.Search.Staged
import StagedSearch.Proofs.Search.Streamed

namespace StagedSearch

/-! ## Tuples of integers -/

namespace Assignment

variable {a b : Assignment} {vars first : List VarId} {tuple : List Int}

/-- An assignment gives some variables the integers of a tuple, in order. -/
def Reads (vars : List VarId) (a : Assignment) (tuple : List Int) : Prop :=
  List.Forall₂ (fun var value => a.int? var = some value) vars tuple

theorem exists_reads (given : ∀ var ∈ vars, ∃ value, a.int? var = some value) :
    ∃ tuple, a.Reads vars tuple := by
  induction vars with
  | nil => exact ⟨[], .nil⟩
  | cons var rest ih =>
    obtain ⟨⟨value, own⟩, later⟩ := List.forall_mem_cons.1 given
    obtain ⟨tuple, reads⟩ := ih later
    exact ⟨value :: tuple, .cons own reads⟩

variable {r : Int → Int → Prop}

/-- Two assignments agree on some variables up to one, where the integers that they give it are
related. -/
def Diverges (r : Int → Int → Prop) (vars : List VarId) (a b : Assignment) : Prop :=
  ∃ before var after x y, vars = before ++ var :: after ∧ (∀ other ∈ before, a other = b other) ∧
    a.int? var = some x ∧ b.int? var = some y ∧ r x y

/-- Variables on which both agree may be put in front. -/
theorem Diverges.append_left (diverges : Diverges r vars a b)
    (same : ∀ var ∈ first, a var = b var) : Diverges r (first ++ vars) a b := by
  obtain ⟨before, var, after, x, y, rfl, agree, given, given', related⟩ := diverges
  refine ⟨first ++ before, var, after, x, y, (List.append_assoc ..).symm, fun other member => ?_,
    given, given', related⟩
  exact (List.mem_append.1 member).elim (same other) (agree other)

theorem Diverges.flip (diverges : Diverges r vars a b) : Diverges (fun x y => r y x) vars b a := by
  obtain ⟨before, var, after, x, y, parts, agree, given, given', related⟩ := diverges
  exact ⟨before, var, after, y, x, parts, fun other member => (agree other member).symm, given',
    given, related⟩

/-- The tuples of assignments that diverge are in lexicographic order. -/
theorem Diverges.lex (diverges : Diverges r vars a b) {xs ys : List Int} (left : a.Reads vars xs)
    (right : b.Reads vars ys) : List.Lex r xs ys := by
  obtain ⟨before, var, after, x, y, rfl, agree, given, given', related⟩ := diverges
  induction before generalizing xs ys with
  | nil =>
    cases left with
    | cons own _ =>
      cases right with
      | cons own' _ =>
        obtain rfl := Option.some.inj (given.symm.trans own)
        obtain rfl := Option.some.inj (given'.symm.trans own')
        exact .rel related
  | cons other before ih =>
    obtain ⟨here, later⟩ := List.forall_mem_cons.1 agree
    cases left with
    | cons own left =>
      cases right with
      | cons own' right =>
        rw [int?, ← here] at own'
        obtain rfl := Option.some.inj (own.symm.trans own')
        exact .cons (ih left right later)

/-- The tuples of assignments that diverge one way are related. -/
def Compares (r : Int → Int → Prop) (related : List Int → List Int → Prop) : Prop :=
  ∀ {vars : List VarId} {a b : Assignment} {xs ys : List Int}, Diverges r vars a b →
    a.Reads vars xs → b.Reads vars ys → related xs ys

theorem compares_lt : Compares (· < ·) (List.Lex (· < ·)) :=
  fun diverges left right => diverges.lex left right

theorem compares_gt : Compares (· > ·) fun xs ys => List.Lex (· < ·) ys xs :=
  fun diverges left right => diverges.flip.lex right left

end Assignment

/-! ## Candidates in order -/

/-- Whatever the domain of a variable is, an order lists candidates that give it values, each of
them related to all later ones. -/
def ValueOrder.Sorts (r : Int → Int → Prop) (order : ValueOrder) : Prop :=
  ∀ (s : Store) (var : VarId), s.domains.Canonical → ∃ values : List Int,
    (order.candidates s var).1.candidates.toList = values.map (.assign var) ∧ values.Pairwise r

namespace ValueOrder

variable {s : Store} {var : VarId}

/-- What is not an integer has no candidates in an order of integers. -/
theorem toList_eq_nil_of_int?_eq_none (none : s.domains.int? var = .none) :
    (ascending.candidates s var).1.candidates.toList = [] ∧
      (descending.candidates s var).1.candidates.toList = [] := by
  rcases here : s.domains.get? var with _ | (d | d)
  · simp [candidates, here, Branching.none, Candidates.toList]
  · cases none.symm.trans (DomainTable.int?_eq_some_iff.2 here)
  · simp [candidates, here, Branching.none, Candidates.toList]

theorem sorts_ascending : ascending.Sorts (· < ·) := by
  intro s var canonical
  cases here : s.domains.int? var with
  | none => exact ⟨[], (toList_eq_nil_of_int?_eq_none here).1, .nil⟩
  | some d =>
    exact ⟨d.values, toList_ascending (DomainTable.int?_eq_some_iff.1 here),
      (canonical.int? here).pairwise_values⟩

theorem sorts_descending : descending.Sorts (· > ·) := by
  intro s var canonical
  cases here : s.domains.int? var with
  | none => exact ⟨[], (toList_eq_nil_of_int?_eq_none here).2, .nil⟩
  | some d =>
    exact ⟨d.values.reverse, toList_descending (DomainTable.int?_eq_some_iff.1 here),
      List.pairwise_reverse.2 (canonical.int? here).pairwise_values⟩

end ValueOrder

/-! ## Solutions in order -/

/-- A chain whose nodes decide their variables in the order of their lists, and always list values
in a given order. -/
structure SearchTree.Sorted (t : SearchTree) (r : Int → Int → Prop) : Prop where
  chain : t.IsChain
  inOrder : ∀ node ∈ t.nodes, node.search.variableOrder = .inputOrder
  sorts : ∀ node ∈ t.nodes, node.search.valueOrder.Sorts r
  fixed : ∀ node ∈ t.nodes, ¬ node.search.valueOrder.IsRandom

/-- What is known of the candidates of a task: they give values, in order, to one of the variables
that are left, and everything listed before that variable is decided. -/
def SearchTask.Branches (t : SearchTree) (r : Int → Int → Prop) (s : Store) : SearchTask → Prop
  | label _ _ _ => True
  | trials id _ _ _ _ candidates => ∃ before var after, ∃ values : List Int,
    t.varsFrom id = before ++ var :: after ∧ (∀ other ∈ before, s.domains.Decided other) ∧
      candidates.toList = values.map (.assign var) ∧ values.Pairwise r

/-- A store is as one of the candidates of a task says. -/
def SearchTask.Tries (u : Store) : SearchTask → Prop
  | label _ _ _ => True
  | trials _ _ _ _ _ candidates => ∃ choice ∈ candidates.toList, u.domains.Obeys choice

/-- The stores that a task hands over lie below the store in which it begins, and they diverge from
one another in a given order. -/
structure SearchTask.HandsOver (t : SearchTree) (r : Int → Int → Prop) (s : Store)
    (task : SearchTask) (leaves : List Store) : Prop where
  descends : ∀ u ∈ leaves, s.Descends u
  tries : ∀ u ∈ leaves, task.Tries u
  apart : leaves.Pairwise fun u w =>
    Assignment.Diverges r (t.varsFrom task.node) u.value? w.value?

namespace SearchTask

variable {t : SearchTree} {r : Int → Int → Prop} {s u w : Store} {id : NodeId}
  {depth size index : Nat} {path path' : PathState} {candidates rest : Candidates}
  {choice : Choice} {leaves first later : List Store}

/-- The candidates after the next one are known as well, and what is handed over below the next one
diverges from what is handed over below them. -/
theorem Branches.next (formed : s.Formed)
    (branches : (trials id depth path size index candidates).Branches t r s)
    (next : candidates.next? = some (choice, rest)) :
    (trials id depth path size (index + 1) rest).Branches t r s ∧
      ∀ u w, s.Descends u → s.Descends w → u.domains.Obeys choice →
        (trials id depth path size (index + 1) rest).Tries w →
          Assignment.Diverges r (t.varsFrom id) u.value? w.value? := by
  obtain ⟨before, var, after, values, parts, decided, listed, sorted⟩ := branches
  rw [Candidates.toList_of_next?_eq_some next] at listed
  obtain ⟨value, values, rfl, rfl, remaining⟩ := List.map_eq_cons_iff.1 listed.symm
  obtain ⟨smaller, sorted⟩ := List.pairwise_cons.1 sorted
  refine ⟨⟨before, var, after, values, parts, decided, remaining.symm, sorted⟩, ?_⟩
  rintro u w left right obeys ⟨other, member, obeys'⟩
  obtain ⟨value', inside, rfl⟩ := List.mem_map.1 (remaining ▸ member)
  refine ⟨before, var, after, value, value', parts, fun other member => ?_,
    left.formed.int?_eq_some_iff.2 obeys, right.formed.int?_eq_some_iff.2 obeys',
    smaller value' inside⟩
  have settled := decided other member
  rw [left.value?_eq formed settled, right.value?_eq formed settled]

theorem handsOver_nil (t : SearchTree) (r : Int → Int → Prop) (s : Store) (task : SearchTask) :
    task.HandsOver t r s [] :=
  ⟨by simp, by simp, .nil⟩

/-- A store that is handed over as it is has nothing to be compared with. -/
theorem handsOver_self (formed : s.Formed) :
    (label id depth path).HandsOver t r s [s] :=
  ⟨by simpa using .refl formed, by simp [Tries], by simp⟩

/-- From one node to the next the variables of the node are put in front. -/
theorem HandsOver.descended {node : SearchNode} (here : t.node? id = some node) (formed : s.Formed)
    (decided : ∀ var ∈ node.vars, s.domains.Decided var)
    (handed : (label (id + 1) 0 .start).HandsOver t r s leaves) :
    (label id depth path).HandsOver t r s leaves where
  descends := handed.descends
  tries := fun _ _ => trivial
  apart := by
    refine handed.apart.imp_of_mem fun {u w} left right diverges => ?_
    show Assignment.Diverges r (t.varsFrom id) u.value? w.value?
    rw [SearchTree.varsFrom_of_node? here]
    refine diverges.append_left fun var member => ?_
    have settled := decided var member
    rw [(handed.descends u left).value?_eq formed settled,
      (handed.descends w right).value?_eq formed settled]

/-- Trying candidates is part of deciding. -/
theorem HandsOver.branched
    (handed : (trials id depth path size index candidates).HandsOver t r s leaves) :
    (label id depth path).HandsOver t r s leaves :=
  ⟨handed.descends, fun _ _ => trivial, handed.apart⟩

/-- The next candidate may be left out of account. -/
theorem HandsOver.after (next : candidates.next? = some (choice, rest))
    (handed : (trials id depth path size (index + 1) rest).HandsOver t r s leaves) :
    (trials id depth path size index candidates).HandsOver t r s leaves where
  descends := handed.descends
  tries u member := by
    obtain ⟨other, inside, obeys⟩ := handed.tries u member
    refine ⟨other, ?_, obeys⟩
    rw [Candidates.toList_of_next?_eq_some next]
    exact List.mem_cons_of_mem choice inside
  apart := handed.apart

/-- What is handed over below the next candidate comes before what is handed over below later
ones. -/
theorem HandsOver.append (formed : s.Formed)
    (branches : (trials id depth path size index candidates).Branches t r s)
    (next : candidates.next? = some (choice, rest)) (descends : s.Descends u)
    (obeys : u.domains.Obeys choice)
    (below : (label id (depth + 1) path').HandsOver t r u first)
    (handed : (trials id depth path size (index + 1) rest).HandsOver t r s later) :
    (trials id depth path size index candidates).HandsOver t r s (first ++ later) := by
  have after := handed.after next
  have obeys' (w : Store) (member : w ∈ first) : w.domains.Obeys choice :=
    (below.descends w member).obeys descends.formed.canonical obeys
  refine ⟨fun w member => ?_, fun w member => ?_, List.pairwise_append.2 ⟨below.apart, handed.apart,
    fun v left w right => ?_⟩⟩
  · rcases List.mem_append.1 member with left | right
    · exact descends.trans (below.descends w left)
    · exact handed.descends w right
  · rcases List.mem_append.1 member with left | right
    · refine ⟨choice, ?_, obeys' w left⟩
      rw [Candidates.toList_of_next?_eq_some next]
      exact List.mem_cons_self
    · exact after.tries w right
  · exact (branches.next formed next).2 v w (descends.trans (below.descends v left))
      (handed.descends w right) (obeys' v left) (handed.tries w right)

end SearchTask

namespace SearchTree

variable {ρ : Type} [Reporter ρ] {t : SearchTree} {r : Int → Int → Prop} {frames : Nat}
  {task : SearchTask} {st : SearchState ρ} {steps : List (SearchStep ρ)}
  {outcome : Flow × SearchState ρ}

/-- The candidates that are listed for the variable that is picked. -/
theorem Sorted.branches (sorted : t.Sorted r) {s : Store} (canonical : s.domains.Canonical)
    {id : NodeId} {node : SearchNode} (here : t.node? id = some node) {var : VarId}
    (picked : node.search.variableOrder.select? s node.vars = some var) (depth size : Nat)
    (path : PathState) :
    (SearchTask.trials id depth path size 0 (listed node s var).candidates).Branches t r s := by
  have member := Array.mem_of_getElem? here
  rw [sorted.inOrder node member] at picked
  obtain ⟨before, after, parts, decided⟩ := VariableOrder.exists_of_select?_inputOrder picked
  obtain ⟨values, listed, ordered⟩ := sorted.sorts node member s var canonical
  refine ⟨before, var, after ++ t.varsFrom (id + 1), values, ?_,
    fun other inside => Store.isSingleton_eq_true_iff.1 (decided other inside), listed, ordered⟩
  rw [varsFrom_of_node? here, parts, List.append_assoc, List.cons_append]

/-- A course hands over stores in order. -/
theorem Course.handsOver (sorted : t.Sorted r) (course : t.Course frames task st steps outcome)
    (formed : st.store.Formed) (steady : t.Steady st.progress)
    (branches : task.Branches t r st.store) :
    task.HandsOver t r st.store (SearchStep.accepted steps) := by
  have kept := SearchState.kept_steady (ρ := ρ) t
  induction course with
  | spent | missing | emptied | late | pruned => exact SearchTask.handsOver_nil _ _ _ _
  | solved => exact SearchTask.handsOver_self formed
  | @descended _ id child _ _ st _ _ _ _ here decided next _ ih =>
    obtain rfl := sorted.chain.eq_succ here next
    have inner := ih formed (kept.setState _ _ _ steady) trivial
    exact inner.descended here formed fun var member =>
      Store.isSingleton_eq_true_iff.1 (VariableOrder.select?_eq_none decided var member)
  | @branched _ _ depth path st st₁ _ _ _ branching _ _ here picked listed _ ih =>
    have same : st₁.store = st.store := (SearchState.quiet_of_listed t listed).store
    have own := SearchState.branching_of_listed steady here listed
    have candidates := sorted.branches formed.canonical here picked depth branching.size path
    rw [← own] at candidates
    have tried := ih (same ▸ formed) (kept.of_listed steady listed fun _ => rfl)
      (same ▸ candidates)
    exact (same ▸ tried).branched
  | @failed _ _ _ _ _ _ _ _ _ _ st st₁ st₂ _ _ _ _ next inTime _ fails _ ih =>
    have looked := SearchState.quiet_of_expired t inTime
    have quiet := SearchState.quiet_decide (looked.store ▸ formed) fails t
    have same : st₂.store = st.store := quiet.store.trans looked.store
    have steady₂ := kept.of_decide (kept.of_expired steady inTime) fails
    have later := ih (same ▸ formed) steady₂ (same ▸ (branches.next formed next).1)
    exact (same ▸ later).after next
  | @returned _ _ _ _ _ _ _ _ _ _ st st₁ st₂ st₃ _ _ _ _ _ next inTime _ enters below _ ihBelow
      ihLater =>
    have looked : st₁.store = st.store := (SearchState.quiet_of_expired t inTime).store
    have entered := SearchState.entered_decide (looked ▸ formed) enters t
    have descends : st.store.Descends st₂.store := looked ▸ entered.descends
    have steady₂ := kept.of_decide (kept.of_expired steady inTime) enters
    have inner := ihBelow descends.formed steady₂ trivial
    have back : st₃.popLevel.store = st.store :=
      (below.store_popLevel descends.formed).trans (entered.back.trans looked)
    have steady₃ := kept.popLevel _ (below.invariant kept steady₂).1
    have later := ihLater (back ▸ formed) steady₃ (back ▸ (branches.next formed next).1)
    simp only [SearchStep.accepted_look, SearchStep.accepted_decide, SearchStep.accepted_append]
    exact inner.append formed branches next descends entered.obeys (back ▸ later)
  | @ended _ _ _ _ _ _ _ _ _ _ st st₁ st₂ _ _ _ _ _ next inTime _ enters _ _ ih =>
    have looked : st₁.store = st.store := (SearchState.quiet_of_expired t inTime).store
    have entered := SearchState.entered_decide (looked ▸ formed) enters t
    have descends : st.store.Descends st₂.store := looked ▸ entered.descends
    have steady₂ := kept.of_decide (kept.of_expired steady inTime) enters
    have inner := ih descends.formed steady₂ trivial
    have whole := inner.append formed branches next descends entered.obeys
      (SearchTask.handsOver_nil t r _ _)
    rw [List.append_nil] at whole
    exact whole

/-- A run hands over stores in order. -/
theorem Follows.handsOver (sorted : t.Sorted r) (formed : st.store.Formed)
    (steady : t.Steady st.progress) (follows : t.Follows st steps) :
    (SearchTask.label 0 0 .start).HandsOver t r st.store (SearchStep.accepted steps) := by
  cases follows with
  | empty | inconsistent => exact SearchTask.handsOver_nil _ _ _ _
  | @searched root _ _ found succeeds course =>
    obtain rfl := eq_zero_of_root? found
    obtain ⟨descends, -⟩ := SearchState.descends_started formed succeeds t
    have started := (SearchState.kept_steady t).setState (SearchState.started t st) 0 .labeling
      (SearchState.steady_started steady)
    have handed := course.handsOver sorted descends.formed started trivial
    exact ⟨fun u member => descends.trans (handed.descends u member), handed.tries, handed.apart⟩

/-- In a chain the variables of all nodes are decided in every store that is handed over. -/
theorem Follows.decided (chain : t.IsChain) (formed : st.store.Formed)
    (follows : t.Follows st steps) {u : Store} (handed : u ∈ SearchStep.accepted steps) :
    ∀ var ∈ t.varsFrom 0, u.domains.Decided var := by
  obtain ⟨step, taken, hands⟩ := List.mem_filterMap.1 handed
  cases step with
  | look | decide => cases hands
  | accept id st' =>
    obtain rfl : st'.store = u := Option.some.inj hands
    have before : t.DecidedBefore t.size st'.store := (follows.staged chain formed _ taken).1
    intro var member
    obtain ⟨node, own, labels⟩ := mem_varsFrom_zero.1 member
    obtain ⟨place, here⟩ := Array.mem_iff_getElem?.1 own
    exact Store.isSingleton_eq_true_iff.1
      (before place node (lt_size_of_node? here) here var labels)

end SearchTree

/-! ## Tuples in order -/

namespace Assignment

variable {r : Int → Int → Prop} {related : List Int → List Int → Prop} {vars : List VarId}
  {assignments : List Assignment}

/-- Each of some assignments gives some variables the integers of a tuple, and each tuple is related
to all later ones. -/
def InOrder (related : List Int → List Int → Prop) (vars : List VarId)
    (assignments : List Assignment) : Prop :=
  ∃ tuples : List (List Int), List.Forall₂ (Reads vars) assignments tuples ∧
    tuples.Pairwise related

/-- Assignments that diverge from one another are in order. -/
theorem inOrder_of_diverges (compares : Compares r related)
    (given : ∀ a ∈ assignments, ∀ var ∈ vars, ∃ value, a.int? var = some value)
    (apart : assignments.Pairwise (Diverges r vars)) : InOrder related vars assignments := by
  induction assignments with
  | nil => exact ⟨[], .nil, .nil⟩
  | cons a rest ih =>
    obtain ⟨own, others⟩ := List.forall_mem_cons.1 given
    obtain ⟨diverges, apart⟩ := List.pairwise_cons.1 apart
    obtain ⟨tuple, reads⟩ := exists_reads own
    obtain ⟨tuples, each, ordered⟩ := ih others apart
    refine ⟨tuple :: tuples, .cons reads each,
      List.pairwise_cons.2 ⟨fun later member => ?_, ordered⟩⟩
    obtain ⟨b, inside, reads'⟩ := exists_mem_of_forall₂ each.flip later member
    exact compares (diverges b inside) reads reads'

end Assignment

/-- If a store can be satisfied, then some assignments begin with one that satisfies it, and all
others that satisfy it come after that one. -/
def Store.FirstOf (related : List Int → List Int → Prop) (vars : List VarId)
    (assignments : List Assignment) (s : Store) : Prop :=
  s.Satisfiable → ∃ first later least, assignments = first :: later ∧ s.Satisfies first ∧
    first.Reads vars least ∧ ∀ assignment, s.Satisfies assignment →
      ∃ tuple, assignment.Reads vars tuple ∧ (tuple = least ∨ related least tuple)

/-- The first of all satisfying assignments in order is the first one of all. -/
theorem Assignment.InOrder.firstOf {related : List Int → List Int → Prop} {vars : List VarId}
    {assignments : List Assignment} (inOrder : InOrder related vars assignments) {s : Store}
    (exactly : ∀ assignment, s.Satisfies assignment ↔ assignment ∈ assignments) :
    s.FirstOf related vars assignments := by
  rintro ⟨some_, satisfies⟩
  obtain ⟨tuples, each, ordered⟩ := inOrder
  cases each with
  | nil => simpa using (exactly some_).1 satisfies
  | @cons first least later others reads each =>
    refine ⟨first, later, least, rfl, (exactly first).2 List.mem_cons_self, reads,
      fun assignment satisfies => ?_⟩
    rcases List.mem_cons.1 ((exactly assignment).1 satisfies) with rfl | member
    · exact ⟨least, reads, .inl rfl⟩
    · obtain ⟨tuple, inside, reads'⟩ := exists_mem_of_forall₂ each assignment member
      exact ⟨tuple, reads', .inr ((List.pairwise_cons.1 ordered).1 tuple inside)⟩

namespace SearchTree

variable {ρ : Type} [Reporter ρ] {t : SearchTree} {r : Int → Int → Prop}
  {related : List Int → List Int → Prop} {st : SearchState ρ} {steps : List (SearchStep ρ)}

/-- The stores that a run hands over have tuples in order, if the variables of the nodes are
integers or booleans. -/
theorem Follows.inOrder (sorted : t.Sorted r) (compares : Assignment.Compares r related)
    (formed : st.store.Formed) (steady : t.Steady st.progress)
    (numeric : ∀ var ∈ t.varsFrom 0, ∃ v, st.store.declaration? var = some v ∧ v.kind ≠ .set)
    (follows : t.Follows st steps) :
    Assignment.InOrder related (t.varsFrom 0) ((SearchStep.accepted steps).map Store.value?) := by
  have handed := follows.handsOver sorted formed steady
  refine Assignment.inOrder_of_diverges compares ?_ (List.pairwise_map.2 handed.apart)
  rintro _ listed var member
  obtain ⟨u, inside, rfl⟩ := List.mem_map.1 listed
  have descends := handed.descends u inside
  obtain ⟨v, declared, number⟩ := numeric var member
  exact descends.formed.exists_int?_eq_some ((descends.declaration?_eq var).trans declared) number
    (follows.decided sorted.chain formed inside var member)

end SearchTree

/-- Leaves that cover what lies below a store, and at which everything is labelled, show the
assignments that satisfy the store. -/
theorem Store.satisfies_iff_mem_leaves {s : Store} {vars : List VarId} {leaves : List Store}
    (formed : s.Formed) (leaf : ∀ u ∈ leaves, Leaf none vars s u)
    (covers : s.Covers vars none none leaves)
    (declared : ∀ var ∈ vars, ∃ v, s.declaration? var = some v)
    (labels : ∀ var, var.index < s.size → var ∈ vars) (assignment : Assignment) :
    s.Satisfies assignment ↔ assignment ∈ leaves.map Store.value? := by
  refine covers.satisfies_iff formed leaf (fun u member var inside => ?_) declared
  refine (leaf u member).decided var (labels var ?_)
  rwa [size, (leaf u member).descends.declarations] at inside

namespace SearchSpec

variable {ρ : Type} [Reporter ρ] {spec : SearchSpec} {names : Names} {s : Store}
  {context : Context ρ} {t : SearchTree} {st : SearchState ρ} {steps : List (SearchStep ρ)}

/-- Building a tree does not look at the listener. -/
theorem build_adjust (built : (spec.build names s context).outcome = .ok (.tree t))
    (adjustment : Listener ρ → Listener ρ) :
    (spec.build names s { context with listener := adjustment context.listener }).outcome =
        .ok (.tree t) ∧
      (spec.build names s { context with listener := adjustment context.listener }).start t =
        ((spec.build names s context).start t).adjust adjustment := by
  unfold build at built ⊢
  cases compiled : spec.stages names s context.seeds with
  | error e seeds =>
    rw [compiled] at built
    cases built
  | ok stages seeds =>
    rw [compiled] at built
    simp only at built ⊢
    split at built
    · cases built
    · rename_i nonempty
      rw [if_neg nonempty, if_neg nonempty]
      unfold chain at built ⊢
      cases wired : spec.wireCost s with
      | error e =>
        rw [wired] at built
        cases built
      | ok made =>
        rw [wired] at built
        exact ⟨built, rfl⟩

/-- The stores that a thorough satisfaction hands over show the satisfying assignments. -/
theorem satisfies_iff_mem_accepted (formed : s.Formed) (goal : spec.goal = .satisfy)
    (thorough : spec.Thorough names s context t)
    (labels : ∀ var, var.index < s.size → var ∈ t.vars)
    (follows : t.Follows ((spec.build names s context).start t) steps) (assignment : Assignment) :
    s.Satisfies assignment ↔ assignment ∈ (SearchStep.accepted steps).map Store.value? := by
  -- What the leaves are is known from the listener only, so an open channel has to tell them.
  let watched : Context ρ :=
    { context with listener := context.listener.streamTo (some .opened) }
  obtain ⟨outcome, start⟩ := build_adjust thorough.outcome (Listener.streamTo (some .opened))
  have thorough' : spec.Thorough names s watched t :=
    ⟨outcome, thorough.complete, thorough.unlimited, thorough.endless.streamTo _⟩
  obtain ⟨leaves, listener, leaf, -, covers, declared⟩ :=
    exists_completes_of_satisfy formed goal thorough'
  have same : ((spec.build names s context).start t).context.listener = context.listener := by
    obtain ⟨_, _, _, -, -, -, -, listener, -⟩ := exists_of_build thorough.outcome
    exact listener
  have shown : (SearchStep.accepted steps).map Store.value? = leaves.map Store.value? := by
    refine follows.map_value?_eq ?_
    rw [same, ← start]
    exact listener
  rw [shown]
  exact Store.satisfies_iff_mem_leaves formed leaf covers declared
    (fun var inside => SearchTree.mem_vars.1 (labels var inside)) assignment

/-- Searches whose nodes prefer the least values are sorted upwards, and those whose nodes prefer
the greatest values are sorted downwards. -/
theorem sorted_of_build (built : (spec.build names s context).outcome = .ok (.tree t))
    (plain : ∀ node ∈ t.nodes, node.search.kind ≠ .set ∧ node.search.variableOrder = .inputOrder) :
    ((∀ node ∈ t.nodes, node.search.preference = .min) → t.Sorted (· < ·)) ∧
      ((∀ node ∈ t.nodes, node.search.preference = .max) → t.Sorted (· > ·)) := by
  obtain ⟨stages, _, objective, compiled, -, -, rfl, -⟩ := exists_of_build built
  have chain := SearchTree.isChain_ofStages (objective.map Objective.bound) stages
  let settled (c : CompiledSearch) : Prop := c.kind ≠ .set →
    (c.preference = .min → c.valueOrder = .ascending) ∧
      (c.preference = .max → c.valueOrder = .descending)
  have orders : ∀ stage ∈ stages, settled stage.search :=
    forall_of_stages CompiledSearch.valueOrder_of_compile compiled
  have orders : ∀ node ∈ (SearchTree.ofStages (objective.map Objective.bound) stages).nodes,
      settled node.search := SearchTree.forall_ofStages orders
  refine ⟨fun least => ?_, fun greatest => ?_⟩
  · have ascending (node : SearchNode) (member : node ∈ _) : node.search.valueOrder = .ascending :=
      (orders node member (plain node member).1).1 (least node member)
    exact ⟨chain, fun node member => (plain node member).2,
      fun node member => (ascending node member).symm ▸ ValueOrder.sorts_ascending,
      fun node member => (ascending node member).symm ▸ id⟩
  · have descending (node : SearchNode) (member : node ∈ _) :
        node.search.valueOrder = .descending :=
      (orders node member (plain node member).1).2 (greatest node member)
    exact ⟨chain, fun node member => (plain node member).2,
      fun node member => (descending node member).symm ▸ ValueOrder.sorts_descending,
      fun node member => (descending node member).symm ▸ id⟩

/-- The variables of nodes that are not about sets are integers or booleans. -/
theorem numeric_of_build (formed : s.Formed)
    (built : (spec.build names s context).outcome = .ok (.tree t))
    (plain : ∀ node ∈ t.nodes, node.search.kind ≠ .set ∧ node.search.variableOrder = .inputOrder) :
    ∀ var ∈ t.varsFrom 0, ∃ v,
      ((spec.build names s context).start t).store.declaration? var = some v ∧ v.kind ≠ .set := by
  obtain ⟨objective, -, ready⟩ := exists_ready_of_build formed built
  intro var member
  obtain ⟨node, own, labels⟩ := SearchTree.mem_varsFrom_zero.1 member
  obtain ⟨id, here⟩ := Array.mem_iff_getElem?.1 own
  obtain ⟨v, declared, taken⟩ := ready.searchable.takes id node here var labels
  refine ⟨v, declared, fun set => (plain node own).1 ?_⟩
  rw [set] at taken
  cases kind : node.search.kind with
  | int | bool =>
    rw [kind] at taken
    cases taken
  | set => rfl

/-- Let the nodes of a tree that was built be about integers and booleans, in the order of their
lists. If all of them prefer the least values, then every run reports solutions in lexicographic
order along the lists of all nodes, whatever the goal, the explorations, the limit of solutions and
the time limit are; if all of them prefer the greatest values, then the other way round. The run
leaves the value orders as they were, so the same holds of later runs over the tree. A thorough
satisfaction whose nodes label all variables then reports the first satisfying assignment of all
before any other one. -/
theorem lexicographic_of_build (built : (spec.build names s context).outcome = .ok (.tree t))
    (plain : ∀ node ∈ t.nodes, node.search.kind ≠ .set ∧ node.search.variableOrder = .inputOrder) :
    (∀ st : SearchState ρ, st.store.Formed → t.Steady st.progress →
      (∀ var ∈ t.varsFrom 0, ∃ v, st.store.declaration? var = some v ∧ v.kind ≠ .set) →
      ∃ (steps : List (SearchStep ρ)) (solutions : List Solution), t.Reports st steps solutions ∧
        t.Steady (t.run st).2.progress ∧
        ((∀ node ∈ t.nodes, node.search.preference = .min) →
          Assignment.InOrder (List.Lex (· < ·)) (t.varsFrom 0) (solutions.map Solution.value?)) ∧
        ((∀ node ∈ t.nodes, node.search.preference = .max) →
          Assignment.InOrder (fun xs ys => List.Lex (· < ·) ys xs) (t.varsFrom 0)
            (solutions.map Solution.value?))) ∧
    (s.Formed → spec.goal = .satisfy → spec.Thorough names s context t →
      (∀ var, var.index < s.size → var ∈ t.vars) →
      ∃ (steps : List (SearchStep ρ)) (solutions : List Solution),
        t.Reports ((spec.build names s context).start t) steps solutions ∧
        ((∀ node ∈ t.nodes, node.search.preference = .min) →
          s.FirstOf (List.Lex (· < ·)) (t.varsFrom 0) (solutions.map Solution.value?)) ∧
        ((∀ node ∈ t.nodes, node.search.preference = .max) →
          s.FirstOf (fun xs ys => List.Lex (· < ·) ys xs) (t.varsFrom 0)
            (solutions.map Solution.value?))) := by
  obtain ⟨upwards, downwards⟩ := sorted_of_build built plain
  refine ⟨fun st formed steady numeric => ?_, fun formed goal thorough labels => ?_⟩
  · obtain ⟨steps, follows⟩ := t.exists_follows st
    refine ⟨steps, _, follows.reports, SearchTree.steady_run steady, ?_, ?_⟩ <;>
      rw [Listener.value?_solutions]
    · exact fun least =>
        follows.inOrder (upwards least) Assignment.compares_lt formed steady numeric
    · exact fun greatest =>
        follows.inOrder (downwards greatest) Assignment.compares_gt formed steady numeric
  · obtain ⟨steps, follows⟩ := t.exists_follows ((spec.build names s context).start t)
    obtain ⟨_, -, ready⟩ := exists_ready_of_build formed built
    have exactly := satisfies_iff_mem_accepted formed goal thorough labels follows
    have numeric := numeric_of_build formed built plain
    refine ⟨steps, _, follows.reports, ?_, ?_⟩ <;> rw [Listener.value?_solutions]
    · intro least
      exact (follows.inOrder (upwards least) Assignment.compares_lt ready.running.formed
        (SearchTree.steady_ofTree (upwards least).fixed) numeric).firstOf exactly
    · intro greatest
      exact (follows.inOrder (downwards greatest) Assignment.compares_gt ready.running.formed
        (SearchTree.steady_ofTree (downwards greatest).fixed) numeric).firstOf exactly

/-- A sum is decided first, and its terms in stages that no hint asks for. A run that stops after
three of the four solutions reports them in order, and a run without a limit reports the least one
first. -/
theorem lexicographic_of_build_sum :
    ∃ (spec : SearchSpec) (names : Names) (s : Store) (context : Context NoReporter)
      (t : SearchTree) (st : SearchState NoReporter) (steps steps' : List (SearchStep NoReporter))
      (solutions solutions' : List Solution),
      (spec.build names s context).outcome = .ok (.tree t) ∧ t.varsFrom 0 = [⟨2⟩, ⟨0⟩, ⟨1⟩] ∧
      st.context.listener.limit = some 3 ∧ t.Reports st steps solutions ∧ solutions.length = 3 ∧
      Assignment.InOrder (List.Lex (· < ·)) (t.varsFrom 0) (solutions.map Solution.value?) ∧
      spec.Thorough names s context t ∧ s.Satisfiable ∧
      t.Reports ((spec.build names s context).start t) steps' solutions' ∧
      s.FirstOf (List.Lex (· < ·)) (t.varsFrom 0) (solutions'.map Solution.value?) := by
  let s := StoreOperation.applyAll Store.empty
    [.declareInt "x" 0 1, .declareBool "b", .declareInt "sum" 0 2,
      .impose (.sumEquals [⟨0⟩, ⟨1⟩] ⟨2⟩)]
  let spec : SearchSpec :=
    ⟨.satisfy, none, some (.leaf .int ⟨[⟨2⟩], some .inputOrder, some .min, .complete⟩)⟩
  let names := Names.empty.addDecisions [⟨0⟩, ⟨1⟩, ⟨2⟩]
  let context : Context NoReporter := Context.ofListener (Listener.all none)
  let t := SearchTree.ofStages none
    [⟨⟨.int, [⟨2⟩], .inputOrder, .min, .complete, .ascending⟩, .explicit⟩,
      ⟨⟨.int, [⟨0⟩], .inputOrder, .min, .complete, .ascending⟩, .completion⟩,
      ⟨⟨.bool, [⟨1⟩], .inputOrder, .min, .complete, .ascending⟩, .completion⟩]
  let st : SearchState NoReporter :=
    ⟨Progress.ofTree t, s, Context.ofListener (Listener.all (some 3))⟩
  have reached : s.Reachable := by
    apply Store.Reachable.empty.applyAll
    simp [StoreOperation.InRange, Signed64.InRange, Signed64.least, Signed64.greatest]
  have built : (spec.build names s context).outcome = .ok (.tree t) := by decide +kernel
  have thorough : spec.Thorough names s context t :=
    ⟨built, SearchTree.complete_ofStages (by simp), rfl,
      Listener.endless_of_reporter_none rfl rfl rfl⟩
  have along : t.varsFrom 0 = [⟨2⟩, ⟨0⟩, ⟨1⟩] := rfl
  have labels : ∀ var : VarId, var.index < s.size → var ∈ t.vars := by
    rintro ⟨i⟩ inside
    have three : i < 3 := inside
    rw [SearchTree.mem_vars, along]
    obtain rfl | rfl | rfl : i = 0 ∨ i = 1 ∨ i = 2 := by omega
    · simp
    · simp
    · simp
  have satisfiable : s.Satisfiable := by
    refine ⟨fun var => if var = ⟨0⟩ then some (.int 0) else if var = ⟨1⟩ then some (.bool false)
      else if var = ⟨2⟩ then some (.int 0) else none, ?_, ?_⟩
    · rintro ⟨_ | _ | _ | i⟩
      · exact ⟨.int 0, rfl, IntDomain.mem_interval.2 (by decide : (0 : Int) ≤ 0 ∧ (0 : Int) ≤ 1)⟩
      · exact ⟨.bool false, rfl,
          IntDomain.mem_interval.2 (by decide : (0 : Int) ≤ 0 ∧ (0 : Int) ≤ 1)⟩
      · exact ⟨.int 0, rfl, IntDomain.mem_interval.2 (by decide : (0 : Int) ≤ 0 ∧ (0 : Int) ≤ 2)⟩
      · rfl
    · intro imposed member
      obtain rfl : imposed = ⟨0, .sumEquals [⟨0⟩, ⟨1⟩] ⟨2⟩⟩ := List.mem_singleton.1 member
      exact Constraint.holds_sumEquals_iff.2 ⟨[0, 0], rfl, rfl⟩
  obtain ⟨runs, leads⟩ := lexicographic_of_build built (by decide)
  have least : ∀ node ∈ t.nodes, node.search.preference = .min := by decide
  have formed : st.store.Formed := reached.formed
  obtain ⟨steps, solutions, reports, -, ordered, -⟩ := runs st formed
    (SearchTree.steady_ofTree (by decide)) (by
      rw [along]
      simp only [List.forall_mem_cons]
      exact ⟨⟨_, rfl, by decide⟩, ⟨_, rfl, by decide⟩, ⟨_, rfl, by decide⟩, by simp⟩)
  obtain ⟨steps', solutions', reports', first, -⟩ := leads reached.formed rfl thorough labels
  have count : (t.run st).2.context.listener.count = 3 := by decide +kernel
  have length := reports.reports.count.symm.trans count
  rw [show st.context.listener.count = 0 from rfl, Nat.zero_add] at length
  exact ⟨spec, names, s, context, t, st, steps, steps', solutions, solutions', built, along, rfl,
    reports, length, ordered least, thorough, satisfiable, reports', first least⟩

end SearchSpec

end StagedSearch
