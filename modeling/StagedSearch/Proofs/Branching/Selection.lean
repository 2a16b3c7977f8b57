/-
# The variable that is picked

A variable order compares keys, and what a key is depends on the order: the place of a variable in
the list, the size of its domain, or an end of what is open about it. Whichever it is, the
variable that is picked is an undecided one with the least key, and the first of these in the list
(`selects_of_reachable`). A comparison that let a tie pass would pick the last of them.

A leaf without a variable order is sorted when it is compiled. Sorting is stable, so of equally
large domains the one that was listed first is decided first.
-/

import Mathlib.Order.Bounds.Basic
import StagedSearch.Proofs.Branching.Splitting
import StagedSearch.Proofs.Tree.Compile

namespace StagedSearch

/-- What is open about a variable: the integers that it can take, or the elements that may be in
or out. -/
def Domain.Open : Domain → Set Int
  | .int d => {value | value ∈ d}
  | .set d => {element | element ∈ d.lub ∧ element ∉ d.glb}

namespace VariableOrder

/-! ## Keys -/

/-- By what an order compares a domain at a place of the list. The least key is the best one, so
where the order prefers what is larger, the sign is turned. -/
def HasKey (order : VariableOrder) (place : Nat) (d : Domain) (key : Int) : Prop :=
  match order with
  | inputOrder => key = place
  | firstFail => key = d.size
  | antiFirstFail => key = -d.size
  | smallest => IsLeast d.Open key
  | largest => IsGreatest d.Open (-key)

/-- An undecided variable stands at a place of a list, and this is its key. -/
def Competes (order : VariableOrder) (s : Store) (vars : List VarId) (place : Nat) (key : Int) :
    Prop :=
  ∃ var d, vars[place]? = some var ∧ s.isSingleton var = false ∧ s.domains.get? var = some d ∧
    order.HasKey place d key

def keyAt (order : VariableOrder) (s : Store) (place : Nat) (var : VarId) : Int :=
  match order with
  | inputOrder => place
  | firstFail => domainSize s var
  | antiFirstFail => -domainSize s var
  | smallest => lowest s var
  | largest => -highest s var

variable {order : VariableOrder} {s : Store} {vars : List VarId} {var : VarId} {d : Domain}

/-- An order compares keys as if all variables stood at one place, so the order of the list
prefers none of them. -/
theorem better_iff {x y : VarId} :
    order.better s x y = true ↔ order.keyAt s 0 x < order.keyAt s 0 y := by
  cases order <;> simp [better, keyAt]

theorem keyAt_eq (different : order ≠ inputOrder) (place : Nat) :
    order.keyAt s place var = order.keyAt s 0 var := by
  cases order with
  | inputOrder => exact absurd rfl different
  | firstFail | antiFirstFail | smallest | largest => rfl

/-- Of a set that is not decided some elements are open, and they are listed in order. -/
theorem undecided_ne_nil {d : SetDomain} (canonical : d.Canonical)
    (undecided : d.isSingleton = false) : d.undecided ≠ [] := by
  intro none
  rw [canonical.isSingleton_iff_undecided.2 none] at undecided
  cases undecided

theorem isLeast_lowest (canonical : d.Canonical) (filled : d.HasValue)
    (undecided : d.isSingleton = false) (here : s.domains.get? var = some d) :
    IsLeast d.Open (lowest s var) := by
  cases d with
  | int d =>
    obtain ⟨low, -, first, -⟩ := IntDomain.Canonical.exists_bounds canonical filled
    have computed : lowest s var = low := by simp only [lowest, here, first, Option.getD_some]
    rw [computed]
    exact (IntDomain.Canonical.min?_eq_some_iff canonical).1 first
  | set d =>
    have some := undecided_ne_nil canonical undecided
    have ascending : d.undecided.Pairwise (· < ·) := canonical.upper.filter _
    have computed : lowest s var = d.undecided.head some := by
      simp only [lowest, here, List.head?_eq_some_head some, Option.getD_some]
    rw [computed]
    constructor
    · exact SetDomain.mem_undecided.1 (List.head_mem some)
    · intro other inside
      exact (ascending.imp le_of_lt).rel_head (SetDomain.mem_undecided.2 inside)

theorem isGreatest_highest (canonical : d.Canonical) (filled : d.HasValue)
    (undecided : d.isSingleton = false) (here : s.domains.get? var = some d) :
    IsGreatest d.Open (highest s var) := by
  cases d with
  | int d =>
    obtain ⟨-, high, -, last⟩ := IntDomain.Canonical.exists_bounds canonical filled
    have computed : highest s var = high := by simp only [highest, here, last, Option.getD_some]
    rw [computed]
    exact (IntDomain.Canonical.max?_eq_some_iff canonical).1 last
  | set d =>
    have some := undecided_ne_nil canonical undecided
    have ascending : d.undecided.Pairwise (· < ·) := canonical.upper.filter _
    have computed : highest s var = d.undecided.getLast some := by
      simp only [highest, here, List.getLast?_eq_some_getLast some, Option.getD_some]
    rw [computed]
    constructor
    · exact SetDomain.mem_undecided.1 (List.getLast_mem some)
    · intro other inside
      exact (ascending.imp le_of_lt).rel_getLast (SetDomain.mem_undecided.2 inside)

/-- An undecided variable that still admits something has one key, and it is the computed one. -/
theorem hasKey_iff (canonical : d.Canonical) (filled : d.HasValue)
    (undecided : d.isSingleton = false) (here : s.domains.get? var = some d) {place : Nat}
    {key : Int} : order.HasKey place d key ↔ key = order.keyAt s place var := by
  have size : domainSize s var = d.size := by simp only [domainSize, here]
  cases order with
  | inputOrder => exact Iff.rfl
  | firstFail => simp only [HasKey, keyAt, size]
  | antiFirstFail => simp only [HasKey, keyAt, size]
  | smallest =>
    have least := isLeast_lowest canonical filled undecided here
    exact ⟨fun other => other.unique least, fun same => same ▸ least⟩
  | largest =>
    have greatest := isGreatest_highest canonical filled undecided here
    constructor
    · intro other
      have same : -key = highest s var := other.unique greatest
      show key = -highest s var
      omega
    · rintro rfl
      show IsGreatest d.Open (- -highest s var)
      rwa [Int.neg_neg]

/-! ## The first of the best -/

section FirstBest

variable {α : Type} {better : α → α → Bool} {rank : α → Int} {a : α}
  (compares : ∀ a b, better a b = true ↔ rank a < rank b)
include compares

/-- What is left of a comparison beats what came before it, and what came later does not beat it.
The induction is on the elements that are still to be compared. -/
theorem exists_of_foldl_better {b : α} {rest : List α}
    (best : rest.foldl (fun best c => if better c best then c else best) b = a) :
    ∃ before after, b :: rest = before ++ a :: after ∧ (∀ c ∈ before, rank a < rank c) ∧
      ∀ c ∈ after, rank a ≤ rank c := by
  induction rest generalizing b with
  | nil =>
    subst best
    exact ⟨[], [], rfl, by simp, by simp⟩
  | cons c rest ih =>
    rw [List.foldl_cons] at best
    by_cases wins : better c b = true
    · rw [if_pos wins] at best
      obtain ⟨before, after, parts, earlier, later⟩ := ih best
      have reaches : rank a ≤ rank c := by
        cases before with
        | nil => exact (congrArg rank (List.cons.inj parts).1).ge
        | cons first between =>
          obtain ⟨rfl, -⟩ := List.cons.inj parts
          exact (earlier c List.mem_cons_self).le
      have beaten : rank a < rank b := reaches.trans_lt ((compares c b).1 wins)
      exact ⟨b :: before, after, congrArg (b :: ·) parts,
        List.forall_mem_cons.2 ⟨beaten, earlier⟩, later⟩
    · rw [if_neg wins] at best
      have most : rank b ≤ rank c := not_lt.1 fun less => wins ((compares c b).2 less)
      obtain ⟨before, after, parts, earlier, later⟩ := ih best
      cases before with
      | nil =>
        obtain ⟨rfl, rfl⟩ := List.cons.inj parts
        exact ⟨[], c :: rest, rfl, by simp, List.forall_mem_cons.2 ⟨most, later⟩⟩
      | cons first between =>
        obtain ⟨rfl, rfl⟩ := List.cons.inj parts
        obtain ⟨beaten, between'⟩ := List.forall_mem_cons.1 earlier
        exact ⟨b :: c :: between, after, rfl, List.forall_mem_cons.2
          ⟨beaten, List.forall_mem_cons.2 ⟨beaten.trans_le most, between'⟩⟩, later⟩

theorem exists_of_firstBest {list : List α} (best : firstBest better list = some a) :
    ∃ before after, list = before ++ a :: after ∧ (∀ b ∈ before, rank a < rank b) ∧
      ∀ b ∈ after, rank a ≤ rank b := by
  cases list with
  | nil => cases best
  | cons b rest => exact exists_of_foldl_better compares (Option.some.inj best)

end FirstBest

/-- The variable that is picked beats all undecided variables before it, and no later one beats
it. -/
theorem exists_of_select? (picked : order.select? s vars = some var) :
    ∃ before after, vars = before ++ var :: after ∧ s.isSingleton var = false ∧
      (∀ other ∈ before, s.isSingleton other = false →
        order.keyAt s 0 var < order.keyAt s 0 other) ∧
      ∀ other ∈ after, s.isSingleton other = false →
        order.keyAt s 0 var ≤ order.keyAt s 0 other := by
  have compares (x y : VarId) : order.better s x y = true ↔ _ := better_iff
  obtain ⟨first, last, parts, ahead, behind⟩ := exists_of_firstBest compares picked
  obtain ⟨left, right, rfl, rfl, split⟩ := List.filter_eq_append_iff.1 parts
  obtain ⟨decided, after, rfl, skipped, undecided, rfl⟩ := List.filter_eq_cons_iff.1 split
  refine ⟨left ++ decided, after, by simp, by simpa using undecided, ?_, ?_⟩
  · intro other member open_
    rcases List.mem_append.1 member with early | late
    · exact ahead other (List.mem_filter.2 ⟨early, by simpa using open_⟩)
    · exact absurd (by simpa using open_) (skipped other late)
  · intro other member open_
    exact behind other (List.mem_filter.2 ⟨member, by simpa using open_⟩)

/-- Some undecided variable is picked, unless there is none. -/
theorem select?_eq_none_iff :
    order.select? s vars = none ↔ ∀ var ∈ vars, s.isSingleton var = true := by
  constructor
  · exact select?_eq_none
  · intro decided
    cases picked : order.select? s vars with
    | none => rfl
    | some var =>
      obtain ⟨member, undecided⟩ := select?_eq_some picked
      rw [decided var member] at undecided
      cases undecided

/-- A listed variable that is undecided competes with the key that is computed for it. -/
theorem competes_iff (formed : s.Formed)
    (filled : ∀ var ∈ vars, ∃ d, s.domains.get? var = some d ∧ d.HasValue) {place : Nat}
    (here : vars[place]? = some var) (undecided : s.isSingleton var = false) {key : Int} :
    order.Competes s vars place key ↔ key = order.keyAt s place var := by
  obtain ⟨d, found, value⟩ := filled var (List.mem_of_getElem? here)
  have open_ : d.isSingleton = false := by simpa only [Store.isSingleton, found] using undecided
  have keyed : order.HasKey place d key ↔ key = order.keyAt s place var :=
    hasKey_iff (formed.canonical var d found) value open_ found
  rw [← keyed]
  constructor
  · rintro ⟨var', d', here', -, found', key'⟩
    obtain rfl := Option.some.inj (here.symm.trans here')
    obtain rfl := Option.some.inj (found.symm.trans found')
    exact key'
  · intro key'
    exact ⟨var, d, here, undecided, found, key'⟩

/-- The variable that is picked stands at the first of the places with the least key. -/
theorem exists_place_of_select? (formed : s.Formed)
    (filled : ∀ var ∈ vars, ∃ d, s.domains.get? var = some d ∧ d.HasValue)
    (picked : order.select? s vars = some var) :
    ∃ place key, vars[place]? = some var ∧ order.Competes s vars place key ∧
      ∀ place' key', order.Competes s vars place' key' →
        key ≤ key' ∧ (place' < place → key < key') := by
  obtain ⟨before, after, rfl, undecided, ahead, behind⟩ := exists_of_select? picked
  have here : (before ++ var :: after)[before.length]? = some var := by simp
  refine ⟨before.length, order.keyAt s before.length var, here,
    (competes_iff formed filled here undecided).2 rfl, ?_⟩
  intro place' key' keyed
  obtain ⟨other, d, there, open_, -⟩ := id keyed
  obtain rfl := (competes_iff formed filled there open_).1 keyed
  rcases Nat.lt_trichotomy place' before.length with early | same | late
  · rw [List.getElem?_append_left early] at there
    have less := ahead other (List.mem_of_getElem? there) open_
    by_cases input : order = inputOrder
    · subst input
      exact absurd less (lt_irrefl _)
    · rw [keyAt_eq input, keyAt_eq input place']
      exact ⟨less.le, fun _ => less⟩
  · subst same
    obtain rfl := Option.some.inj (here.symm.trans there)
    exact ⟨le_rfl, fun less => absurd less (lt_irrefl _)⟩
  · have later : other ∈ after := by
      rw [List.getElem?_append_right late.le] at there
      obtain ⟨n, gap⟩ := Nat.exists_eq_add_of_lt late
      rw [show place' - before.length = n + 1 by omega, List.getElem?_cons_succ] at there
      exact List.mem_of_getElem? there
    refine ⟨?_, fun less => absurd less late.not_gt⟩
    by_cases input : order = inputOrder
    · subst input
      exact Int.ofNat_le.2 late.le
    · rw [keyAt_eq input, keyAt_eq input place']
      exact behind other later open_

end VariableOrder

namespace CompiledSearch

/-- A sequence has no variables of its own, so compiling it fails. -/
theorem exists_leaf_of_compile {kind : DirectiveKind} {search : VarSearch} {s : Store}
    {seeds seeds' : Generator} {c : CompiledSearch}
    (compiled : compile kind search s seeds = .ok (some c) seeds') : ∃ leaf, kind = .leaf leaf := by
  cases kind with
  | leaf leaf => exact ⟨leaf, rfl⟩
  | seq =>
    unfold compile at compiled
    cases checked : checkVariables .seq s search.vars with
    | error e =>
      rw [checked] at compiled
      cases compiled
    | ok =>
      rw [checked] at compiled
      cases compiled

variable {search : VarSearch} {s : Store}

/-- The comparison by which variables are sorted. -/
def noLarger (s : Store) (x y : VarId) : Bool :=
  decide (VariableOrder.domainSize s x ≤ VariableOrder.domainSize s y)

theorem noLarger_trans (s : Store) (x y z : VarId) (first : noLarger s x y = true)
    (second : noLarger s y z = true) : noLarger s x z = true :=
  decide_eq_true ((of_decide_eq_true first).trans (of_decide_eq_true second))

theorem noLarger_total (s : Store) (x y : VarId) : (noLarger s x y || noLarger s y x) = true := by
  simpa [noLarger] using Nat.le_total _ _

theorem settleVariables_eq (unordered : search.variableOrder = none) :
    settleVariables search s = (search.vars.mergeSort (noLarger s), .inputOrder) := by
  simp only [settleVariables, unordered]
  rfl

theorem pairwise_settleVariables (unordered : search.variableOrder = none) :
    (settleVariables search s).1.Pairwise fun x y =>
      VariableOrder.domainSize s x ≤ VariableOrder.domainSize s y := by
  rw [settleVariables_eq unordered]
  have sorted := List.pairwise_mergeSort (noLarger_trans s) (noLarger_total s) search.vars
  exact sorted.imp fun less => of_decide_eq_true less

/-- Sorting by size keeps the order of what is equally large. What is equally large is sorted as
it is, so it stays a part of the sorted list, and nothing else of its size is in there. -/
theorem filter_settleVariables (unordered : search.variableOrder = none) (size : Nat) :
    (settleVariables search s).1.filter (VariableOrder.domainSize s · = size) =
      search.vars.filter (VariableOrder.domainSize s · = size) := by
  have settled := settleVariables_perm search s
  have stays : (search.vars.filter (VariableOrder.domainSize s · = size)).Sublist
      (settleVariables search s).1 := by
    rw [settleVariables_eq unordered]
    apply List.sublist_mergeSort (noLarger_trans s) (noLarger_total s)
    · rw [List.pairwise_filter]
      refine List.pairwise_of_forall_mem_list fun x _ y _ left right => ?_
      simp only [decide_eq_true_eq] at left right
      exact decide_eq_true (left.trans right.symm).le
    · exact List.filter_sublist
  have part := stays.filter (VariableOrder.domainSize s · = size)
  rw [List.filter_filter] at part
  simp only [Bool.and_self] at part
  exact (part.eq_of_length (settled.filter _).length_eq.symm).symm

/-- Without a variable order the variables are sorted by the sizes that their domains have when the
leaf is compiled, and decided in this order. -/
theorem sorted_of_compile (formed : s.Formed) {kind : DirectiveKind} {search : VarSearch}
    {seeds seeds' : Generator} {c : CompiledSearch} (unordered : search.variableOrder = none)
    (compiled : compile kind search s seeds = .ok (some c) seeds') :
    c.variableOrder = .inputOrder ∧ c.vars.Perm search.vars ∧
      (∀ var ∈ c.vars, ∃ d, s.domains.get? var = some d ∧
        VariableOrder.domainSize s var = d.size) ∧
      (c.vars.Pairwise fun x y => VariableOrder.domainSize s x ≤ VariableOrder.domainSize s y) ∧
      ∀ size, c.vars.filter (VariableOrder.domainSize s · = size) =
        search.vars.filter (VariableOrder.domainSize s · = size) := by
  obtain ⟨leaf, rfl⟩ := exists_leaf_of_compile compiled
  have works := works_of_compile compiled
  obtain ⟨-, ⟨-, none⟩ | ⟨-, order, settled, same⟩⟩ := compile_cases compiled
  · cases none
  obtain rfl := Option.some.inj same
  refine ⟨?_, settleVariables_perm search s, fun var member => ?_, ?_,
    filter_settleVariables unordered⟩
  · simp only [settleVariables, unordered]
  · obtain ⟨v, declared, -⟩ := works.takes var member
    obtain ⟨d, here, -⟩ := formed.exists_domain declared
    exact ⟨d, here, by simp only [VariableOrder.domainSize, here]⟩
  · exact pairwise_settleVariables unordered

end CompiledSearch

namespace VariableOrder

variable {s : Store} {vars : List VarId}

/-- From variables that all admit something an order picks none exactly if all are decided. Else
each undecided one has one key, and the variable that is picked has the least of them, at the first
place where it occurs. A leaf without an order is sorted by the sizes of its domains, those of one
size in the order of the leaf, and decided from the first variable on. -/
theorem selects_of_reachable (reached : s.Reachable)
    (filled : ∀ var ∈ vars, ∃ d, s.domains.get? var = some d ∧ d.HasValue)
    (order : VariableOrder) :
    (order.select? s vars = none ↔ ∀ var ∈ vars, s.isSingleton var = true) ∧
    (∀ place var, vars[place]? = some var → s.isSingleton var = false →
      ∃! key, order.Competes s vars place key) ∧
    (∀ var, order.select? s vars = some var ↔ ∃ place key, vars[place]? = some var ∧
      order.Competes s vars place key ∧ ∀ place' key', order.Competes s vars place' key' →
        key ≤ key' ∧ (place' < place → key < key')) ∧
    ∀ kind search seeds seeds' c, search.variableOrder = none →
      CompiledSearch.compile kind search s seeds = .ok (some c) seeds' →
      c.variableOrder = .inputOrder ∧ c.vars.Perm search.vars ∧
        (∀ var ∈ c.vars, ∃ d, s.domains.get? var = some d ∧ domainSize s var = d.size) ∧
        (c.vars.Pairwise fun x y => domainSize s x ≤ domainSize s y) ∧
        ∀ size, c.vars.filter (domainSize s · = size) =
          search.vars.filter (domainSize s · = size) := by
  have formed := reached.formed
  have competes (place : Nat) (var : VarId) (here : vars[place]? = some var)
      (undecided : s.isSingleton var = false) (key : Int) :
      order.Competes s vars place key ↔ key = order.keyAt s place var :=
    competes_iff formed filled here undecided
  refine ⟨select?_eq_none_iff, ?_, fun var => ⟨?_, ?_⟩, ?_⟩
  · intro place var here undecided
    refine ⟨order.keyAt s place var, (competes place var here undecided _).2 rfl, ?_⟩
    intro key keyed
    exact (competes place var here undecided key).1 keyed
  · exact exists_place_of_select? formed filled
  · rintro ⟨place, key, here, keyed, best⟩
    cases picked : order.select? s vars with
    | none =>
      obtain ⟨var', d, there, undecided, -⟩ := keyed
      have decided := select?_eq_none picked var' (List.mem_of_getElem? there)
      rw [undecided] at decided
      cases decided
    | some var' =>
      obtain ⟨place', key', there, keyed', best'⟩ := exists_place_of_select? formed filled picked
      -- Each of the two places would be before the other one, with a lesser key.
      have same : place = place' := by
        have ahead := best place' key' keyed'
        have ahead' := best' place key keyed
        omega
      rw [← same] at there
      rw [Option.some.inj (here.symm.trans there)]
  · intro kind search seeds seeds' c unordered compiled
    exact CompiledSearch.sorted_of_compile formed unordered compiled

/-- A decided variable, a smaller domain, and two of the largest size, of which the first is a set
that is listed twice. Sorting puts the decided variable in front and leaves the two domains of size
three as they are. -/
theorem selects_of_reachable_mixed :
    ∃ (s : Store) (vars : List VarId) (search : VarSearch) (c : CompiledSearch), s.Reachable ∧
      (∀ var ∈ vars, ∃ d, s.domains.get? var = some d ∧ d.HasValue) ∧
      antiFirstFail.select? s vars = some ⟨2⟩ ∧
      (∃ place key, vars[place]? = some ⟨2⟩ ∧ antiFirstFail.Competes s vars place key ∧
        ∀ place' key', antiFirstFail.Competes s vars place' key' →
          key ≤ key' ∧ (place' < place → key < key')) ∧
      search.variableOrder = none ∧ search.vars = [⟨3⟩, ⟨4⟩, ⟨1⟩, ⟨0⟩] ∧
      CompiledSearch.compile (.leaf .int) search s (Generator.ofSeed 0) =
        .ok (some c) (Generator.ofSeed 0) ∧
      c.vars = [⟨0⟩, ⟨4⟩, ⟨1⟩, ⟨3⟩] ∧
      c.vars.filter (domainSize s · = 3) = search.vars.filter (domainSize s · = 3) := by
  let s := StoreOperation.applyAll Store.empty
    [.declareInt "w" 3 3, .declareInt "x" 0 2, .declareSet "s" [] [5, 7], .declareInt "y" 4 7,
      .declareInt "z" 1 3]
  let vars : List VarId := [⟨0⟩, ⟨1⟩, ⟨2⟩, ⟨3⟩, ⟨2⟩]
  let search : VarSearch := ⟨[⟨3⟩, ⟨4⟩, ⟨1⟩, ⟨0⟩], none, some .min, .complete⟩
  have reached : s.Reachable := Store.Reachable.empty.applyAll (by decide)
  have filled : ∀ var ∈ vars, ∃ d, s.domains.get? var = some d ∧ d.HasValue := by
    simp only [vars, List.forall_mem_cons]
    exact ⟨⟨_, rfl, 3, by decide⟩, ⟨_, rfl, 0, by decide⟩, ⟨_, rfl, trivial⟩,
      ⟨_, rfl, 4, by decide⟩, ⟨_, rfl, trivial⟩, by simp⟩
  obtain ⟨-, -, picks, sorts⟩ := selects_of_reachable reached filled antiFirstFail
  have picked : antiFirstFail.select? s vars = some ⟨2⟩ := by decide
  have compiled : CompiledSearch.compile (.leaf .int) search s (Generator.ofSeed 0) =
      .ok (some ⟨.int, (CompiledSearch.settleVariables search s).1, .inputOrder, .min, .complete,
        .ascending⟩) (Generator.ofSeed 0) := rfl
  have sorted : (CompiledSearch.settleVariables search s).1 = [⟨0⟩, ⟨4⟩, ⟨1⟩, ⟨3⟩] := by
    have largest : CompiledSearch.noLarger s ⟨3⟩ ⟨4⟩ = false := by decide
    have largest' : CompiledSearch.noLarger s ⟨3⟩ ⟨1⟩ = false := by decide
    have decided : CompiledSearch.noLarger s ⟨1⟩ ⟨0⟩ = false := by decide
    have decided' : CompiledSearch.noLarger s ⟨4⟩ ⟨0⟩ = false := by decide
    have equal : CompiledSearch.noLarger s ⟨4⟩ ⟨1⟩ = true := by decide
    rw [CompiledSearch.settleVariables_eq rfl]
    simp [search, List.mergeSort, List.MergeSort.Internal.splitInTwo, largest, largest', decided,
      decided', equal]
  obtain ⟨-, -, -, -, stable⟩ := sorts _ search _ _ _ rfl compiled
  exact ⟨s, vars, search, _, reached, filled, picked, (picks ⟨2⟩).1 picked, rfl, rfl, compiled,
    sorted, stable 3⟩

end VariableOrder

end StagedSearch
