/-
# Resolving solve items

A solve item is resolved exactly if every hint of it describes a directive and the cost of an
optimization names a number of the store. The hints come first: as long as one of them is at
fault, the error is about a hint, and neither goal nor store has a say in it.

Elements of an array count from 1, so the place of an element is one less than its index. It is
computed before it is compared with the length of the array. The least number of the range has no
predecessor there, so an element of an existing array at that index breaks the computation off
instead of being refused. No other index does (`resolves_of_inRange`).
-/

import StagedSearch.Proofs.Directive.Grammar
import StagedSearch.Proofs.Search.Costs

namespace StagedSearch

/-- The expression names a variable: by its own name, or as the element of an array that has as
many elements before it as the index says, less one. -/
inductive CostExpression.Denotes (names : Names) : CostExpression → VarId → Prop
  | scalar {name : String} {var : VarId} (known : names.scalar? name = some var) :
      Denotes names (.scalar name) var
  | element {name : String} {index : Int} {before after : List VarId} {var : VarId}
      (known : names.array? name = some (before ++ var :: after))
      (counted : index = before.length + 1) : Denotes names (.element name index) var

/-- What several hints describe together: no directive without hints, the directive of a single
hint, and otherwise the sequence of their directives. -/
inductive SearchDirective.DescribedBy (names : Names) : List Hint → Option SearchDirective → Prop
  | absent : DescribedBy names [] none
  | single {hint : Hint} {directive : SearchDirective}
      (described : Describes names hint.term directive) :
      DescribedBy names [hint] (some directive)
  | several {first second : Hint} {rest : List Hint} {children : List SearchDirective}
      (described : DescribesAll names ((first :: second :: rest).map Hint.term) children) :
      DescribedBy names (first :: second :: rest) (some (.seq children))

namespace SolveError

/-- An error that is about a hint, or about a name in one. -/
def IsHint : SolveError → Prop
  | unsupportedSearchType _ => True
  | unsupportedExploration _ => True
  | unsupportedHeuristic _ _ => True
  | malformedHint _ _ => True
  | unknownName _ => True
  | _ => False

/-- An error that is about the cost of a goal, or about the variable that it names. -/
def IsCost : SolveError → Prop
  | malformedCost _ => True
  | store _ => True
  | _ => False

theorem IsCost.not_isHint {e : SolveError} (cost : e.IsCost) : ¬ e.IsHint := by
  cases e <;> first | exact id | exact cost.elim

end SolveError

/-- What a goal asks for, without its cost. -/
def SolveGoal.purpose : SolveGoal → Goal
  | satisfy => .satisfy
  | minimize _ => .minimize
  | maximize _ => .maximize

/-- An optimization has a cost, and nothing else has one. -/
theorem SolveGoal.isOptimization_purpose (goal : SolveGoal) :
    goal.purpose.isOptimization = goal.cost?.isSome := by
  cases goal <;> rfl

namespace SolveItem

/-- The index in the cost, if there is one, is a number of the range. -/
def InRange (item : SolveItem) : Prop :=
  ∀ name index, item.goal.cost? = some (.element name index) → Signed64.InRange index

theorem InRange.of_named {item : SolveItem} (inRange : item.InRange) {e : CostExpression}
    (named : item.goal.cost? = some e) :
    ∀ name index, e = .element name index → Signed64.InRange index := by
  rintro name index rfl
  exact inRange name index named

def HintsDescribe (item : SolveItem) (names : Names) : Prop :=
  ∀ hint ∈ item.hints, ∃ directive, SearchDirective.Describes names hint.term directive

/-- The cost is an element of an existing array whose place is below the range. -/
def OverflowsPlace (item : SolveItem) (names : Names) : Prop :=
  ∃ name vars, item.goal.cost? = some (.element name Signed64.least) ∧
    names.array? name = some vars

end SolveItem

structure SearchSpec.Resolves (item : SolveItem) (names : Names) (s : Store) : Prop where
  /-- It succeeds exactly if hints and cost are accepted. -/
  accepts : (∃ spec, SearchSpec.ofItem item names s = .ok spec) ↔
    item.HintsDescribe names ∧
      ∀ e, item.goal.cost? = some e → ∃ var, e.Denotes names var ∧ s.IsNumeric var
  /-- There is a cost exactly if the goal is an optimization, and it is what was named. -/
  made : ∀ spec, SearchSpec.ofItem item names s = .ok spec →
    spec.goal = item.goal.purpose ∧
      SearchDirective.DescribedBy names item.hints spec.directive ∧
      (spec.cost.isSome = true ↔ spec.goal.isOptimization = true) ∧
      ∀ e, item.goal.cost? = some e →
        ∃ var, spec.cost = some var ∧ e.Denotes names var ∧ s.IsNumeric var
  /-- Hints that are at fault settle the error, whatever goal and store are. -/
  hintsFirst : ¬ item.HintsDescribe names → ∃ e : SolveError, e.IsHint ∧
    ∀ goal s', SearchSpec.ofItem ⟨goal, item.hints⟩ names s' = .error e
  /-- Behind hints that are accepted, only the cost can be at fault. -/
  costsLast : item.HintsDescribe names →
    ∀ e, SearchSpec.ofItem item names s = .error e → e.IsCost
  /-- The computation breaks off at the least index of an array that exists, and nowhere else. -/
  overflows : SearchSpec.ofItem item names s = .error (.malformedCost .overflow) ↔
    item.HintsDescribe names ∧ item.OverflowsPlace names

/-! ## Hints -/

namespace SearchDirective

variable {names : Names} {hints : List Hint}

theorem ofHints_eq_ok_iff {directive : Option SearchDirective} :
    ofHints names hints = .ok directive ↔ DescribedBy names hints directive := by
  match hints with
  | [] =>
    constructor
    · rintro ⟨⟩
      exact .absent
    · rintro ⟨⟩
      rfl
  | [hint] =>
    constructor
    · intro read
      obtain ⟨single, known, rfl⟩ := except_map_eq_ok.1 read
      exact .single (ofTerm_eq_ok_iff.1 known)
    · rintro (_ | described)
      exact except_map_eq_ok.2 ⟨_, ofTerm_eq_ok_iff.2 described, rfl⟩
  | first :: second :: rest =>
    constructor
    · intro read
      obtain ⟨children, known, rfl⟩ := except_map_eq_ok.1 read
      exact .several (describesAll_of_ofTerms _ known)
    · rintro (_ | _ | described)
      exact except_map_eq_ok.2 ⟨_, ofTerms_of_describesAll described, rfl⟩

/-- Terms describe directives together exactly if each of them describes one. -/
theorem exists_describesAll_iff {terms : List HintTerm} :
    (∃ children, DescribesAll names terms children) ↔
      ∀ term ∈ terms, ∃ directive, Describes names term directive := by
  induction terms with
  | nil => exact iff_of_true ⟨[], .nil⟩ nofun
  | cons term terms ih =>
    rw [List.forall_mem_cons, ← ih]
    constructor
    · rintro ⟨_, _ | ⟨first, later⟩⟩
      exact ⟨⟨_, first⟩, _, later⟩
    · rintro ⟨⟨child, first⟩, children, later⟩
      exact ⟨child :: children, .cons first later⟩

theorem exists_describedBy_iff :
    (∃ directive, DescribedBy names hints directive) ↔
      ∀ hint ∈ hints, ∃ directive, Describes names hint.term directive := by
  match hints with
  | [] => exact iff_of_true ⟨none, .absent⟩ nofun
  | [hint] =>
    rw [List.forall_mem_singleton]
    constructor
    · rintro ⟨_, _ | described⟩
      exact ⟨_, described⟩
    · rintro ⟨directive, described⟩
      exact ⟨some directive, .single described⟩
  | first :: second :: rest =>
    rw [← List.forall_mem_map (f := Hint.term)
      (P := fun term => ∃ directive, Describes names term directive), ← exists_describesAll_iff]
    constructor
    · rintro ⟨_, _ | _ | described⟩
      exact ⟨_, described⟩
    · rintro ⟨children, described⟩
      exact ⟨some (.seq children), .several described⟩

/-! ## Errors of hints -/

def BlamesHint {α : Type} (x : Except SolveError α) : Prop := ∀ e, x = .error e → e.IsHint

section BlamesHint

variable {α β : Type}

theorem blamesHint_ok (a : α) : BlamesHint (.ok a) := nofun

theorem blamesHint_error {e : SolveError} (about : e.IsHint) :
    BlamesHint (.error e : Except SolveError α) := by
  rintro _ ⟨⟩
  exact about

theorem BlamesHint.bind {x : Except SolveError α} {f : α → Except SolveError β}
    (first : BlamesHint x) (rest : ∀ a, BlamesHint (f a)) : BlamesHint (x >>= f) := by
  intro e fails
  cases x with
  | error fault =>
    cases fails
    exact first _ rfl
  | ok a => exact rest a e fails

theorem BlamesHint.map {x : Except SolveError α} (first : BlamesHint x) (f : α → β) :
    BlamesHint (x.map f) := by
  intro e fails
  cases x with
  | error fault =>
    cases fails
    exact first _ rfl
  | ok a => cases fails

end BlamesHint

theorem blamesHint_resolveItems (names : Names) (items : List HintTerm) :
    BlamesHint (resolveItems names items) := by
  induction items with
  | nil => exact blamesHint_ok []
  | cons item rest ih =>
    cases item with
    | ident text =>
      unfold resolveItems
      split
      · exact blamesHint_error trivial
      · exact ih.map _
    | int value => exact ih
    | array items => exact blamesHint_error trivial
    | call name args => exact blamesHint_error trivial

theorem blamesHint_resolveVariables (names : Names) (term : HintTerm) :
    BlamesHint (resolveVariables names term) := by
  cases term with
  | ident text =>
    rw [resolveVariables]
    cases names.resolve? text with
    | none => exact blamesHint_error trivial
    | some vars => exact blamesHint_ok vars
  | array items => exact blamesHint_resolveItems names items
  | int value => exact blamesHint_error trivial
  | call name args => exact blamesHint_error trivial

theorem blamesHint_resolveVariableOrder (term : HintTerm) :
    BlamesHint (resolveVariableOrder term) := by
  unfold resolveVariableOrder
  split
  · exact blamesHint_ok _
  · exact blamesHint_error trivial

theorem blamesHint_resolvePreference (kind : VarKind) (term : HintTerm) :
    BlamesHint (resolvePreference kind term) := by
  unfold resolvePreference
  split
  · split
    · exact blamesHint_error trivial
    · exact blamesHint_ok _
  · exact blamesHint_error trivial

theorem blamesHint_resolveExploration (rest : List HintTerm) :
    BlamesHint (resolveExploration rest) := by
  cases rest with
  | nil => exact blamesHint_ok Exploration.complete
  | cons term rest =>
    rw [resolveExploration]
    cases exploration? term with
    | none => exact blamesHint_error trivial
    | some exploration => exact blamesHint_ok exploration

theorem blamesHint_resolveLeaf (names : Names) (kind : VarKind) (shown : String)
    (args : List HintTerm) : BlamesHint (resolveLeaf names kind shown args) := by
  unfold resolveLeaf
  split
  · apply (blamesHint_resolveVariables names _).bind
    intro vars
    apply (blamesHint_resolveVariableOrder _).bind
    intro order
    apply (blamesHint_resolvePreference kind _).bind
    intro preference
    apply (blamesHint_resolveExploration _).bind
    intro exploration
    exact blamesHint_ok _
  · exact blamesHint_error trivial

mutual

/-- Reading a term blames a hint, by recursion on the term. -/
theorem blamesHint_ofTerm (names : Names) : ∀ term : HintTerm, BlamesHint (ofTerm names term)
  | .ident _ => blamesHint_error trivial
  | .int _ => blamesHint_error trivial
  | .array _ => blamesHint_error trivial
  | .call name args => by
    unfold ofTerm
    split
    · exact blamesHint_error trivial
    · exact (blamesHint_ofTerms names _).map _
    · exact blamesHint_error trivial
    · exact (blamesHint_resolveLeaf names _ _ _).map _

theorem blamesHint_ofTerms (names : Names) :
    ∀ terms : List HintTerm, BlamesHint (ofTerms names terms)
  | [] => blamesHint_ok []
  | term :: terms => by
    apply (blamesHint_ofTerm names term).bind
    intro child
    apply (blamesHint_ofTerms names terms).bind
    intro children
    exact blamesHint_ok _

end

theorem blamesHint_ofHints (names : Names) (hints : List Hint) :
    BlamesHint (ofHints names hints) := by
  match hints with
  | [] => exact blamesHint_ok none
  | [hint] => exact (blamesHint_ofTerm names hint.term).map some
  | first :: second :: rest =>
    exact (blamesHint_ofTerms names ((first :: second :: rest).map Hint.term)).map _

end SearchDirective

/-! ## Costs -/

namespace CostExpression

variable {names : Names} {s : Store} {name : String} {index : Int} {vars : List VarId}
  {var : VarId} {e : CostExpression}

/-- One less than a number of the range leaves it only for the least number. -/
theorem checked_pred_eq_none_iff (inRange : Signed64.InRange index) :
    Signed64.checked (index - 1) = none ↔ index = Signed64.least := by
  rw [Signed64.checked_eq_none_iff]
  unfold Signed64.InRange Signed64.least Signed64.greatest at *
  omega

theorem lookup_of_noArray (none : names.array? name = none) (index : Int) :
    (element name index).lookup names = .ok .none := by
  simp only [lookup, none]

theorem lookup_of_overflow (known : names.array? name = some vars)
    (overflow : Signed64.checked (index - 1) = none) :
    (element name index).lookup names = .error .overflow := by
  simp only [lookup, known, overflow]

theorem lookup_of_place (known : names.array? name = some vars) {place : Int}
    (computed : Signed64.checked (index - 1) = some place) :
    (element name index).lookup names =
      .ok (if 0 ≤ place then vars[place.toNat]? else none) := by
  simp only [lookup, known, computed]

/-- Where the elements of an array count from 1, their places count from 0. -/
theorem denotes_element_iff (known : names.array? name = some vars) :
    (element name index).Denotes names var ↔
      0 ≤ index - 1 ∧ vars[(index - 1).toNat]? = some var := by
  constructor
  · intro denotes
    cases denotes with
    | element known' counted =>
      obtain rfl := Option.some.inj (known.symm.trans known')
      subst counted
      simp
  · rintro ⟨positive, here⟩
    obtain ⟨bounded, rfl⟩ := List.getElem?_eq_some_iff.1 here
    have split : vars = vars.take (index - 1).toNat ++
        vars[(index - 1).toNat] :: vars.drop ((index - 1).toNat + 1) := by
      rw [← List.drop_eq_getElem_cons, List.take_append_drop]
    apply Denotes.element (known.trans (congrArg some split))
    rw [List.length_take_of_le bounded.le]
    omega

theorem lookup_eq_ok_some_iff
    (inRange : ∀ name index, e = .element name index → Signed64.InRange index) :
    e.lookup names = .ok (some var) ↔ e.Denotes names var := by
  cases e with
  | scalar name =>
    constructor
    · intro found
      exact .scalar (Except.ok.inj found)
    · rintro (known | _)
      exact congrArg Except.ok known
  | element name index =>
    cases known : names.array? name with
    | none =>
      rw [lookup_of_noArray known]
      apply iff_of_false nofun
      intro denotes
      cases denotes with
      | element known' => cases known.symm.trans known'
    | some vars =>
      rw [denotes_element_iff known]
      cases computed : Signed64.checked (index - 1) with
      | none =>
        rw [lookup_of_overflow known computed]
        have least := (checked_pred_eq_none_iff (inRange name index rfl)).1 computed
        subst least
        exact iff_of_false nofun fun denotes => absurd denotes.1 (by decide)
      | some place =>
        obtain ⟨-, rfl⟩ := Signed64.checked_eq_some_iff.1 computed
        rw [lookup_of_place known computed]
        simp

theorem lookup_eq_error_iff {fault : CostFault}
    (inRange : ∀ name index, e = .element name index → Signed64.InRange index) :
    e.lookup names = .error fault ↔
      fault = .overflow ∧ ∃ name vars, e = .element name Signed64.least ∧
        names.array? name = some vars := by
  cases e with
  | scalar name => exact iff_of_false nofun (by rintro ⟨-, _, _, ⟨⟩, -⟩)
  | element name index =>
    cases known : names.array? name with
    | none =>
      rw [lookup_of_noArray known]
      refine iff_of_false nofun ?_
      rintro ⟨-, _, _, ⟨⟩, known'⟩
      cases known.symm.trans known'
    | some vars =>
      cases computed : Signed64.checked (index - 1) with
      | none =>
        rw [lookup_of_overflow known computed]
        have least := (checked_pred_eq_none_iff (inRange name index rfl)).1 computed
        subst least
        constructor
        · rintro ⟨⟩
          exact ⟨rfl, name, vars, rfl, known⟩
        · rintro ⟨rfl, -⟩
          rfl
      | some place =>
        rw [lookup_of_place known computed]
        refine iff_of_false nofun ?_
        rintro ⟨-, _, _, ⟨⟩, -⟩
        cases computed

theorem resolve_eq_ok_iff
    (inRange : ∀ name index, e = .element name index → Signed64.InRange index) :
    e.resolve names s = .ok var ↔ e.Denotes names var ∧ s.IsNumeric var := by
  rw [← lookup_eq_ok_some_iff inRange]
  constructor
  · intro resolved
    refine ⟨?_, SearchSpec.isNumeric_of_resolve resolved⟩
    unfold resolve at resolved
    split at resolved
    · cases resolved
    · cases resolved
    · rename_i other found
      split at resolved
      · cases resolved
      · cases resolved
      · cases resolved
        exact found
  · rintro ⟨found, v, declared, numeric⟩
    have declared := Store.declaration_eq_ok.2 declared
    unfold resolve
    simp only [found, declared]
    split
    · cases ‹_›
    · rename_i same
      cases same
      exact absurd rfl numeric
    · rfl

theorem isCost_of_resolve {fault : SolveError} (failed : e.resolve names s = .error fault) :
    fault.IsCost := by
  unfold resolve at failed
  split at failed
  · cases failed
    trivial
  · cases failed
    trivial
  · split at failed
    · cases failed
      trivial
    · cases failed
      trivial
    · cases failed

/-- The computation breaks off where that of the place does. -/
theorem resolve_eq_overflow_iff :
    e.resolve names s = .error (.malformedCost .overflow) ↔
      e.lookup names = .error .overflow := by
  unfold resolve
  split
  · rename_i fault failed
    simp [failed]
  · rename_i failed
    simp [failed]
  · rename_i var found
    rw [found]
    refine iff_of_false ?_ nofun
    split <;> simp

end CostExpression

/-! ## Items -/

theorem except_map_eq_error {ε α β : Type} {x : Except ε α} {f : α → β} {e : ε} :
    x.map f = .error e ↔ x = .error e := by
  cases x <;> simp [Except.map]

namespace SearchSpec

variable {item : SolveItem} {names : Names} {s : Store} {spec : SearchSpec}

theorem exists_ofHints_of_ofItem (resolved : ofItem item names s = .ok spec) :
    ∃ directive, SearchDirective.ofHints names item.hints = .ok directive := by
  obtain ⟨directive, read, -⟩ := except_bind_eq_ok.1 resolved
  exact ⟨directive, read⟩

/-- Without a cost, an item whose hints are read is resolved. -/
theorem ofItem_of_noCost {directive : Option SearchDirective}
    (read : SearchDirective.ofHints names item.hints = .ok directive)
    (none : item.goal.cost? = none) :
    ofItem item names s = .ok ⟨item.goal.purpose, .none, directive⟩ := by
  unfold ofItem
  rw [read]
  cases kind : item.goal with
  | satisfy => rfl
  | minimize e | maximize e =>
    rw [kind] at none
    cases none

/-- With a cost, resolving it settles what an item comes to. -/
theorem ofItem_of_cost {directive : Option SearchDirective}
    (read : SearchDirective.ofHints names item.hints = .ok directive) {e : CostExpression}
    (named : item.goal.cost? = some e) :
    ofItem item names s =
      (e.resolve names s).map fun var => ⟨item.goal.purpose, some var, directive⟩ := by
  unfold ofItem
  rw [read]
  cases kind : item.goal with
  | satisfy =>
    rw [kind] at named
    cases named
  | minimize cost | maximize cost =>
    rw [kind] at named
    cases named
    simp only [bind, Except.bind]
    cases e.resolve names s <;> rfl

/-- Where a hint is at fault, nothing else counts. -/
theorem ofItem_of_ofHints_error {e : SolveError}
    (failed : SearchDirective.ofHints names item.hints = .error e) :
    ofItem item names s = .error e := by
  unfold ofItem
  rw [failed]
  rfl

theorem hintsDescribe_iff : item.HintsDescribe names ↔
    ∃ directive, SearchDirective.ofHints names item.hints = .ok directive := by
  simp only [SearchDirective.ofHints_eq_ok_iff, SearchDirective.exists_describedBy_iff]
  rfl

/-- What an item is resolved to, in terms of what its hints and its cost say. -/
theorem ofItem_eq_ok_iff (inRange : item.InRange) :
    ofItem item names s = .ok spec ↔
      SearchDirective.DescribedBy names item.hints spec.directive ∧
        spec.goal = item.goal.purpose ∧
        spec.cost.isSome = item.goal.cost?.isSome ∧
        ∀ e, item.goal.cost? = some e →
          ∃ var, spec.cost = some var ∧ e.Denotes names var ∧ s.IsNumeric var := by
  rw [← SearchDirective.ofHints_eq_ok_iff]
  constructor
  · intro resolved
    obtain ⟨directive, read⟩ := exists_ofHints_of_ofItem resolved
    cases named : item.goal.cost? with
    | none =>
      rw [ofItem_of_noCost read named] at resolved
      cases resolved
      exact ⟨read, rfl, rfl, nofun⟩
    | some e =>
      rw [ofItem_of_cost read named] at resolved
      obtain ⟨var, found, rfl⟩ := except_map_eq_ok.1 resolved
      refine ⟨read, rfl, rfl, ?_⟩
      rintro _ ⟨⟩
      exact ⟨var, rfl, (CostExpression.resolve_eq_ok_iff (inRange.of_named named)).1 found⟩
  · rintro ⟨read, purpose, some, costs⟩
    obtain ⟨goal, cost, directive⟩ := spec
    cases purpose
    cases named : item.goal.cost? with
    | none =>
      rw [named] at some
      obtain rfl := Option.isNone_iff_eq_none.1 (Option.isSome_eq_false_iff.1 some)
      exact ofItem_of_noCost read named
    | some e =>
      obtain ⟨var, rfl, numeric⟩ := costs e named
      rw [ofItem_of_cost read named,
        (CostExpression.resolve_eq_ok_iff (inRange.of_named named)).2 numeric]
      rfl

/-- The computation breaks off at the least index of an array that exists, and nowhere else. -/
theorem ofItem_eq_overflow_iff (inRange : item.InRange) :
    ofItem item names s = .error (.malformedCost .overflow) ↔
      item.HintsDescribe names ∧ item.OverflowsPlace names := by
  rw [hintsDescribe_iff]
  cases read : SearchDirective.ofHints names item.hints with
  | error e =>
    rw [ofItem_of_ofHints_error read]
    refine iff_of_false ?_ nofun
    rintro ⟨⟩
    exact SearchDirective.blamesHint_ofHints names item.hints _ read
  | ok directive =>
    rw [and_iff_right ⟨directive, rfl⟩]
    cases named : item.goal.cost? with
    | none =>
      rw [ofItem_of_noCost read named]
      refine iff_of_false nofun ?_
      rintro ⟨name, vars, named', -⟩
      cases named.symm.trans named'
    | some e =>
      rw [ofItem_of_cost read named, except_map_eq_error, CostExpression.resolve_eq_overflow_iff,
        CostExpression.lookup_eq_error_iff (inRange.of_named named), and_iff_right rfl]
      simp only [SolveItem.OverflowsPlace, named, Option.some.injEq]

/-- Behind hints that are read, only the cost can be at fault. -/
theorem isCost_of_ofItem {directive : Option SearchDirective}
    (read : SearchDirective.ofHints names item.hints = .ok directive) {e : SolveError}
    (failed : ofItem item names s = .error e) : e.IsCost := by
  cases named : item.goal.cost? with
  | none =>
    rw [ofItem_of_noCost read named] at failed
    cases failed
  | some cost =>
    rw [ofItem_of_cost read named] at failed
    exact CostExpression.isCost_of_resolve (except_map_eq_error.1 failed)

/-- Every item whose index is a number of the range is resolved as its hints and its cost say. -/
theorem resolves_of_inRange (inRange : item.InRange) (names : Names) (s : Store) :
    Resolves item names s where
  accepts := by
    rw [hintsDescribe_iff]
    constructor
    · rintro ⟨spec, resolved⟩
      obtain ⟨-, -, -, costs⟩ := (ofItem_eq_ok_iff inRange).1 resolved
      refine ⟨exists_ofHints_of_ofItem resolved, fun e named => ?_⟩
      obtain ⟨var, -, numeric⟩ := costs e named
      exact ⟨var, numeric⟩
    · rintro ⟨⟨directive, read⟩, costs⟩
      cases named : item.goal.cost? with
      | none => exact ⟨_, ofItem_of_noCost read named⟩
      | some e =>
        obtain ⟨var, numeric⟩ := costs e named
        refine ⟨⟨item.goal.purpose, some var, directive⟩, (ofItem_eq_ok_iff inRange).2 ?_⟩
        refine ⟨SearchDirective.ofHints_eq_ok_iff.1 read, rfl, by rw [named]; rfl, ?_⟩
        intro e' named'
        cases named.symm.trans named'
        exact ⟨var, rfl, numeric⟩
  made spec resolved := by
    obtain ⟨described, purpose, some, costs⟩ := (ofItem_eq_ok_iff inRange).1 resolved
    refine ⟨purpose, described, ?_, costs⟩
    rw [purpose, some, item.goal.isOptimization_purpose]
  hintsFirst := by
    intro fault
    rw [hintsDescribe_iff] at fault
    cases read : SearchDirective.ofHints names item.hints with
    | ok directive => exact absurd ⟨directive, read⟩ fault
    | error e =>
      refine ⟨e, SearchDirective.blamesHint_ofHints names item.hints e read, fun goal s' => ?_⟩
      exact ofItem_of_ofHints_error read
  costsLast := by
    intro accepted e failed
    obtain ⟨directive, read⟩ := hintsDescribe_iff.1 accepted
    exact isCost_of_ofItem read failed
  overflows := ofItem_eq_overflow_iff inRange

/-- The second element of an array as the cost of a maximization, behind two hints. -/
theorem resolves_of_inRange_element :
    let s := Samples.pair
    let names := (Names.ofStore s).addArray "q" [⟨1⟩, ⟨0⟩]
    let hint (name : String) : Hint :=
      ⟨"int_search", [.array [.ident name], .ident "input_order", .ident "indomain_min"]⟩
    let item : SolveItem := ⟨.maximize (.element "q" 2), [hint "x", hint "y"]⟩
    item.InRange ∧ ∃ spec, ofItem item names s = .ok spec ∧ spec.goal = .maximize ∧
      spec.cost = some ⟨0⟩ := by
  intro s names hint item
  have inRange : item.InRange := by
    rintro name index ⟨⟩
    decide
  have resolves := resolves_of_inRange inRange names s
  have described : item.HintsDescribe names := by
    intro hint member
    obtain rfl | rfl : hint = _ ∨ hint = _ := by simpa [item] using member
    · exact ⟨_, SearchDirective.ofTerm_eq_ok_iff.1 rfl⟩
    · exact ⟨_, SearchDirective.ofTerm_eq_ok_iff.1 rfl⟩
  have second : (CostExpression.element "q" 2).Denotes names ⟨0⟩ :=
    (CostExpression.denotes_element_iff rfl).2 (by decide)
  obtain ⟨spec, resolved⟩ := resolves.accepts.2
    ⟨described, by rintro _ ⟨⟩; exact ⟨⟨0⟩, second, ⟨"x", .int⟩, rfl, by decide⟩⟩
  obtain ⟨purpose, -, -, costs⟩ := resolves.made spec resolved
  obtain ⟨var, cost, denotes, -⟩ := costs _ rfl
  have placed : 0 ≤ (2 : Int) - 1 ∧ [(⟨1⟩ : VarId), ⟨0⟩][((2 : Int) - 1).toNat]? = some var :=
    (CostExpression.denotes_element_iff rfl).1 denotes
  obtain rfl : (⟨0⟩ : VarId) = var := Option.some.inj placed.2
  exact ⟨inRange, spec, resolved, purpose, cost⟩

/-- An index of the range at which resolving breaks off. The one above it is refused. -/
theorem exists_overflow_of_index :
    ∃ (names : Names) (s : Store) (item : SolveItem), s.Reachable ∧ item.InRange ∧
      item.goal = .minimize (.element "q" Signed64.least) ∧
      ofItem item names s = .error (.malformedCost .overflow) ∧
      ofItem { item with goal := .minimize (.element "q" (Signed64.least + 1)) } names s =
        .error (.malformedCost (.unresolved "q[-9223372036854775807]")) := by
  refine ⟨Names.empty.addArray "q" [⟨0⟩], Store.empty, ⟨.minimize (.element "q" Signed64.least), []⟩,
    .empty, ?_, rfl, rfl, rfl⟩
  rintro name index ⟨⟩
  decide

end SearchSpec

end StagedSearch
