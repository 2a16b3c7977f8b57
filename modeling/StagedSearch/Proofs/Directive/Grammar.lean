/-
# Reading hints by their grammar

A hint is read as a directive exactly if the grammar says that it describes that directive. Each
function of the reader is compared with the relation that says what it reads, names first and
whole terms last; a term is followed down through its arrays, so a sequence of any depth is read
exactly if every term in it is.

What the grammar does not describe is refused. What it describes has the leaves that the leaf
terms describe, from left to right.
-/

import StagedSearch.Directive.Grammar
import StagedSearch.Model.Samples
import StagedSearch.Proofs.Store.Narrowing

namespace StagedSearch

/-! ## Names -/

theorem HintTerm.isName_iff {term : HintTerm} {name : String} :
    term.IsName name ↔ term.asName? = some name := by
  constructor
  · rintro (_ | _) <;> rfl
  · intro named
    unfold asName? at named
    split at named <;> cases named
    · exact .ident _
    · exact .call _

theorem VariableOrder.ofName?_eq_some_iff {name : String} {order : VariableOrder} :
    ofName? name = some order ↔ name = order.name := by
  constructor
  · intro named
    unfold ofName? at named
    split at named <;> cases named <;> rfl
  · rintro rfl
    cases order <;> rfl

theorem ValuePreference.ofName?_eq_some_iff {name : String} {preference : ValuePreference} :
    ofName? name = some preference ↔ name ∈ preference.names := by
  constructor
  · intro named
    unfold ofName? at named
    split at named <;> cases named <;> simp [names]
  · intro named
    cases preference <;> simp only [names, List.mem_cons, List.not_mem_nil, or_false] at named <;>
      rcases named with rfl | rfl <;> rfl

theorem DirectiveKind.ofName?_eq_some_iff {name : String} {kind : DirectiveKind} :
    ofName? name = some kind ↔ name = kind.name := by
  constructor
  · intro named
    unfold ofName? at named
    split at named <;> cases named <;> rfl
  · rintro rfl
    rcases kind with (_ | _ | _) | _ <;> rfl

@[simp] theorem DirectiveKind.ofName?_name (kind : DirectiveKind) :
    ofName? kind.name = some kind := ofName?_eq_some_iff.2 rfl

theorem DirectiveKind.name_leaf_ne_name_seq (kind : VarKind) : (leaf kind).name ≠ seq.name := by
  cases kind <;> decide

namespace SearchDirective

variable {names : Names} {kind : VarKind} {term : HintTerm} {items args : List HintTerm}
  {vars : List VarId}

/-! ## The arguments of a leaf -/

theorem resolveItems_eq_ok_iff :
    resolveItems names items = .ok vars ↔ ListsItems names items vars := by
  constructor
  · intro read
    induction items generalizing vars with
    | nil =>
      cases read
      exact .nil
    | cons item rest ih =>
      unfold resolveItems at read
      cases item with
      | ident text =>
        dsimp only at read
        split at read
        · cases read
        · rename_i var known
          obtain ⟨later, reads, rfl⟩ := except_map_eq_ok.1 read
          exact .scalar known (ih reads)
      | int value => exact .number (ih read)
      | array items => cases read
      | call name args => cases read
  · intro listed
    induction listed with
    | nil => rfl
    | number _ ih => exact ih
    | scalar known _ ih => simp only [resolveItems, known, ih, Except.map]

theorem resolveVariables_eq_ok_iff :
    resolveVariables names term = .ok vars ↔ ListsVariables names term vars := by
  constructor
  · intro read
    unfold resolveVariables at read
    split at read
    · rename_i name
      unfold Names.resolve? at read
      cases array : names.array? name with
      | some listed =>
        simp only [array] at read
        cases read
        exact .array array
      | none =>
        cases scalar : names.scalar? name with
        | some var =>
          simp only [array, scalar, Option.map_some] at read
          cases read
          exact .scalar array scalar
        | none =>
          simp only [array, scalar, Option.map_none] at read
          cases read
    · exact .items (resolveItems_eq_ok_iff.1 read)
    · cases read
  · rintro (known | ⟨noArray, known⟩ | listed)
    · simp only [resolveVariables, Names.resolve?, known]
    · simp only [resolveVariables, Names.resolve?, noArray, known, Option.map_some]
    · exact resolveItems_eq_ok_iff.2 listed

theorem resolveVariableOrder_eq_ok_iff {order : VariableOrder} :
    resolveVariableOrder term = .ok order ↔ term.IsName order.name := by
  have named : term.asName?.bind VariableOrder.ofName? = some order ↔ term.IsName order.name := by
    simp only [Option.bind_eq_some_iff, VariableOrder.ofName?_eq_some_iff, HintTerm.isName_iff]
    exact ⟨fun ⟨_, named, same⟩ => same ▸ named, fun named => ⟨_, named, rfl⟩⟩
  rw [← named]
  unfold resolveVariableOrder
  cases term.asName?.bind VariableOrder.ofName? <;> simp

theorem resolvePreference_eq_ok_iff {preference : ValuePreference} :
    resolvePreference kind term = .ok preference ↔ NamesPreference kind term preference := by
  have named : term.asName?.bind ValuePreference.ofName? = some preference ↔
      ∃ name ∈ preference.names, term.IsName name := by
    simp only [Option.bind_eq_some_iff, ValuePreference.ofName?_eq_some_iff, HintTerm.isName_iff]
    exact exists_congr fun _ => and_comm
  unfold NamesPreference
  rw [← named]
  unfold resolvePreference
  cases term.asName?.bind ValuePreference.ofName? with
  | none => simp
  | some found =>
    dsimp only
    split
    · rename_i refused
      obtain ⟨set, notMin, notMax⟩ := refused
      simp only [reduceCtorEq, Option.some.injEq, false_iff]
      rintro ⟨rfl, sorted⟩
      exact (sorted set).elim notMin notMax
    · rename_i suits
      rw [Except.ok.injEq, Option.some.injEq]
      refine ⟨?_, And.left⟩
      rintro rfl
      exact ⟨rfl, fun set => by tauto⟩

/-! ## Explorations -/

theorem firstNat?_eq_some_iff {number : Nat} :
    firstNat? args = some number ↔ ∃ extra, args = .int number :: extra := by
  constructor
  · intro read
    unfold firstNat? at read
    split at read
    · rename_i value extra
      split at read <;> cases read
      rename_i positive
      exact ⟨extra, by rw [Int.toNat_of_nonneg positive]⟩
    · cases read
  · rintro ⟨extra, rfl⟩
    simp [firstNat?]

theorem firstLimit?_eq_some_iff {limit : Nat} :
    firstLimit? args = some limit ↔
      limit < Unsigned32.modulus ∧ ∃ extra, args = .int limit :: extra := by
  unfold firstLimit?
  rw [Option.filter_eq_some_iff, firstNat?_eq_some_iff, decide_eq_true_iff, and_comm]

theorem creditDepth?_eq_some_iff {depth : Nat} :
    creditDepth? args = some depth ↔ depth < Unsigned32.modulus ∧
      ∃ units extra extra', args = units :: .call "bbs" (.int depth :: extra) :: extra' := by
  constructor
  · intro read
    unfold creditDepth? at read
    split at read
    · obtain ⟨small, extra, rfl⟩ := firstLimit?_eq_some_iff.1 read
      exact ⟨small, _, extra, _, rfl⟩
    · cases read
  · rintro ⟨small, units, extra, extra', rfl⟩
    exact firstLimit?_eq_some_iff.2 ⟨small, extra, rfl⟩

theorem exploration?_eq_some_iff {exploration : Exploration} :
    exploration? term = some exploration ↔ NamesExploration term exploration := by
  constructor
  · intro read
    unfold exploration? at read
    split at read
    · cases read
      exact .complete (.ident _)
    · cases read
      exact .complete (.call _)
    · obtain ⟨limit, first, rfl⟩ := Option.map_eq_some_iff.1 read
      obtain ⟨small, extra, rfl⟩ := firstLimit?_eq_some_iff.1 first
      exact .lds small extra
    · rename_i args
      obtain ⟨units, first, read⟩ := Option.bind_eq_some_iff.1 read
      obtain ⟨depth, second, read⟩ := Option.bind_eq_some_iff.1 read
      cases read
      obtain ⟨rest, rfl⟩ := firstNat?_eq_some_iff.1 first
      obtain ⟨small, _, extra, extra', same⟩ := creditDepth?_eq_some_iff.1 second
      cases same
      exact .credit small extra extra'
    · cases read
  · rintro (⟨⟨_⟩ | ⟨_⟩⟩ | ⟨small, extra⟩ | ⟨small, extra, extra'⟩)
    · rfl
    · rfl
    · simp only [exploration?, firstLimit?_eq_some_iff.2 ⟨small, extra, rfl⟩, Option.map_some]
    · simp only [exploration?, firstNat?_eq_some_iff.2 ⟨_, rfl⟩,
        creditDepth?_eq_some_iff.2 ⟨small, _, extra, extra', rfl⟩, Option.bind_eq_bind,
        Option.bind_some, Option.pure_def]

theorem resolveExploration_eq_ok_iff {exploration : Exploration} :
    resolveExploration args = .ok exploration ↔ SettlesExploration args exploration := by
  constructor
  · intro read
    unfold resolveExploration at read
    split at read
    · cases read
      exact .absent
    · split at read <;> cases read
      rename_i known
      exact .named (exploration?_eq_some_iff.1 known) _
  · rintro (_ | ⟨known, extra⟩)
    · rfl
    · simp only [resolveExploration, exploration?_eq_some_iff.2 known]

/-! ## Terms -/

/-- The arguments of a leaf are read exactly if they are those of a call that describes it. -/
theorem resolveLeaf_eq_ok_iff {shown : String} {search : VarSearch} :
    resolveLeaf names kind shown args = .ok search ↔
      Describes names (.call (DirectiveKind.leaf kind).name args) (.leaf kind search) := by
  constructor
  · intro read
    unfold resolveLeaf at read
    split at read
    · obtain ⟨vars, lists, read⟩ := except_bind_eq_ok.1 read
      obtain ⟨order, orders, read⟩ := except_bind_eq_ok.1 read
      obtain ⟨preference, prefers, read⟩ := except_bind_eq_ok.1 read
      obtain ⟨exploration, explores, read⟩ := except_bind_eq_ok.1 read
      cases read
      exact .leaf (resolveVariables_eq_ok_iff.1 lists) (resolveVariableOrder_eq_ok_iff.1 orders)
        (resolvePreference_eq_ok_iff.1 prefers) (resolveExploration_eq_ok_iff.1 explores)
    · cases read
  · generalize shape : HintTerm.call (DirectiveKind.leaf kind).name args = term
    generalize form : SearchDirective.leaf kind search = directive
    rintro (⟨lists, orders, prefers, explores⟩ | _)
    · cases form
      cases shape
      simp only [resolveLeaf, resolveVariables_eq_ok_iff.2 lists,
        resolveVariableOrder_eq_ok_iff.2 orders, resolvePreference_eq_ok_iff.2 prefers,
        resolveExploration_eq_ok_iff.2 explores]
      rfl
    · cases form

mutual

/-- What is read from a term is what the term describes, by recursion on the term. -/
theorem describes_of_ofTerm : ∀ (term : HintTerm) {directive : SearchDirective},
    ofTerm names term = .ok directive → Describes names term directive
  | .ident _, _, read => by cases read
  | .int _, _, read => by cases read
  | .array _, _, read => by cases read
  | .call name args, directive, read => by
    unfold ofTerm at read
    split at read
    · cases read
    · rename_i items extra known
      obtain rfl := DirectiveKind.ofName?_eq_some_iff.1 known
      obtain ⟨children, parts, rfl⟩ := except_map_eq_ok.1 read
      exact .seq (describesAll_of_ofTerms items parts) _
    · cases read
    · rename_i kind _ known
      obtain rfl := DirectiveKind.ofName?_eq_some_iff.1 known
      obtain ⟨search, leaf, rfl⟩ := except_map_eq_ok.1 read
      exact resolveLeaf_eq_ok_iff.1 leaf

theorem describesAll_of_ofTerms : ∀ (terms : List HintTerm) {children : List SearchDirective},
    ofTerms names terms = .ok children → DescribesAll names terms children
  | [], _, read => by
    cases read
    exact .nil
  | term :: terms, _, read => by
    obtain ⟨child, first, read⟩ := except_bind_eq_ok.1 read
    obtain ⟨children, later, read⟩ := except_bind_eq_ok.1 read
    cases read
    exact .cons (describes_of_ofTerm term first) (describesAll_of_ofTerms terms later)

end

mutual

/-- What a term describes is read from it, by recursion on how it describes that. -/
theorem ofTerm_of_describes {term : HintTerm} {directive : SearchDirective} :
    Describes names term directive → ofTerm names term = .ok directive
  | .leaf lists orders prefers explores => by
    unfold ofTerm
    simp only [DirectiveKind.ofName?_name, Except.map,
      resolveLeaf_eq_ok_iff.2 (.leaf lists orders prefers explores)]
  | .seq parts _ => by
    unfold ofTerm
    simp only [DirectiveKind.ofName?_name, Except.map, ofTerms_of_describesAll parts]

theorem ofTerms_of_describesAll {terms : List HintTerm} {children : List SearchDirective} :
    DescribesAll names terms children → ofTerms names terms = .ok children
  | .nil => rfl
  | .cons first later => by
    simp only [ofTerms, ofTerm_of_describes first, ofTerms_of_describesAll later]
    rfl

end

theorem ofTerm_eq_ok_iff {directive : SearchDirective} :
    ofTerm names term = .ok directive ↔ Describes names term directive :=
  ⟨describes_of_ofTerm term, ofTerm_of_describes⟩

/-! ## Leaves -/

mutual

/-- A directive has a leaf for each leaf term, in the order of the terms. -/
theorem forall₂_leaves_of_describes {term : HintTerm} {directive : SearchDirective} :
    Describes names term directive →
      List.Forall₂ (fun term leaf => Describes names term (.leaf leaf.1 leaf.2))
        term.leafTerms directive.leaves
  | .leaf lists orders prefers explores => by
    unfold HintTerm.leafTerms leaves
    rw [if_neg (DirectiveKind.name_leaf_ne_name_seq _)]
    exact .cons (.leaf lists orders prefers explores) .nil
  | .seq parts _ => by
    unfold HintTerm.leafTerms leaves
    rw [if_pos rfl]
    exact forall₂_leavesOfAll_of_describesAll parts

theorem forall₂_leavesOfAll_of_describesAll {terms : List HintTerm}
    {children : List SearchDirective} :
    DescribesAll names terms children →
      List.Forall₂ (fun term leaf => Describes names term (.leaf leaf.1 leaf.2))
        (HintTerm.leafTermsOfAll terms) (leavesOfAll children)
  | .nil => by
    unfold HintTerm.leafTermsOfAll leavesOfAll
    exact .nil
  | .cons first later => by
    unfold HintTerm.leafTermsOfAll leavesOfAll
    exact List.rel_append (forall₂_leaves_of_describes first)
      (forall₂_leavesOfAll_of_describesAll later)

end

/-- A hint is read as a directive exactly if the grammar says that it describes that directive.
The leaves of the directive are then described by the leaf terms of the hint, one by one from
left to right. -/
theorem ofHint_eq_ok_iff_describes (names : Names) (hint : Hint) (directive : SearchDirective) :
    (ofHint names hint = .ok directive ↔ Describes names hint.term directive) ∧
      (ofHint names hint = .ok directive →
        List.Forall₂ (fun term leaf => Describes names term (.leaf leaf.1 leaf.2))
          hint.term.leafTerms directive.leaves) :=
  ⟨ofTerm_eq_ok_iff, fun read => forall₂_leaves_of_describes (ofTerm_eq_ok_iff.1 read)⟩

/-- A sequence in a sequence, with a number among the variables and arguments that nothing
needs. -/
theorem ofHint_eq_ok_iff_describes_nested :
    let names := Names.ofStore Samples.pair
    let first := HintTerm.call "int_search" [.array [.ident "y", .int 5, .ident "x"],
      .call "first_fail" [], .ident "indomain", .call "lds" [.int 2, .int 9]]
    let second := HintTerm.call "set_search" [.ident "x", .ident "input_order",
      .ident "indomain_max", .call "credit" [.int 8, .call "bbs" [.int 3, .int 1]], .int 0]
    let hint : Hint :=
      ⟨"seq_search", [.array [.call "seq_search" [.array [first], .ident "z"], second]]⟩
    let directive := seq [seq [leaf .int ⟨[⟨1⟩, ⟨0⟩], some .firstFail, some .min, .lds 2⟩],
      leaf .set ⟨[⟨0⟩], some .inputOrder, some .max, .credit 8 3⟩]
    ofHint names hint = .ok directive ∧ Describes names hint.term directive ∧
      List.Forall₂ (fun term leaf => Describes names term (.leaf leaf.1 leaf.2))
        [first, second] directive.leaves := by
  intro names first second hint directive
  have read : ofHint names hint = .ok directive := rfl
  obtain ⟨described, leaves⟩ := ofHint_eq_ok_iff_describes names hint directive
  exact ⟨read, described.1 read, leaves read⟩

end SearchDirective

end StagedSearch
