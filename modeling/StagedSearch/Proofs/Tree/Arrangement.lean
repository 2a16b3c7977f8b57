/-
# The arrangement of a tree that is built

What the nodes of a tree are, said of the directive and the dictionary and not of how they are
compiled. Two relations describe what a directive asks for, one its leaves from left to right and
one the variables that it names at any depth; neither mentions the other. The nodes of a tree
that is built are those of the leaves that have variables, and up to three more for the decision
variables that hints leave open. They form one chain.
-/

import StagedSearch.Proofs.Tree.Grown

namespace StagedSearch

namespace SearchDirective

/-- The leaves of a directive from left to right. A sequence has the leaves of its first
directive, and then those of the sequence of the others. -/
inductive Flattens : SearchDirective → List (VarKind × VarSearch) → Prop
  | leaf (kind : VarKind) (search : VarSearch) : Flattens (.leaf kind search) [(kind, search)]
  | empty : Flattens (.seq []) []
  | cons {child : SearchDirective} {children : List SearchDirective}
      {first later : List (VarKind × VarSearch)} (head : Flattens child first)
      (rest : Flattens (.seq children) later) :
      Flattens (.seq (child :: children)) (first ++ later)

/-- A variable is named by a leaf somewhere in a directive. -/
inductive Claims (var : VarId) : SearchDirective → Prop
  | leaf {kind : VarKind} {search : VarSearch} (named : var ∈ search.vars) :
      Claims var (.leaf kind search)
  | seq {child : SearchDirective} {children : List SearchDirective} (member : child ∈ children)
      (below : Claims var child) : Claims var (.seq children)

end SearchDirective

namespace SearchSpec

/-- The leaves that hints ask for, from left to right. Without a directive there are none. -/
inductive Asks (spec : SearchSpec) : List (VarKind × VarSearch) → Prop
  | directed {directive : SearchDirective} {leaves : List (VarKind × VarSearch)}
      (directive_eq : spec.directive = some directive) (flattens : directive.Flattens leaves) :
      Asks spec leaves
  | undirected (directive_eq : spec.directive = none) : Asks spec []

/-- A variable is named by a hint. -/
def Claims (spec : SearchSpec) (var : VarId) : Prop :=
  ∃ directive, spec.directive = some directive ∧ directive.Claims var

/-- A variable of some kind has to be decided, although no hint names it. -/
structure LeavesOpen (spec : SearchSpec) (names : Names) (s : Store) (kind : VarKind)
    (var : VarId) : Prop where
  decision : var ∈ names.decisions
  unclaimed : ¬ spec.Claims var
  declared : ∃ v, s.declaration? var = some v ∧ v.kind = kind

end SearchSpec

namespace SearchNode

/-- A node that is made of a leaf. The variables may be in another order. -/
structure IsOf (node : SearchNode) (role : NodeRole) (leaf : VarKind × VarSearch) : Prop where
  role : node.role = role
  kind : node.search.kind = leaf.1
  vars : node.vars.Perm leaf.2.vars
  exploration : node.search.exploration = leaf.2.exploration

/-- A node that completes a search: it decides what hints leave open of its kind. -/
structure IsCompletion (node : SearchNode) (spec : SearchSpec) (names : Names) (s : Store) :
    Prop where
  role : node.role = .completion
  exploration : node.search.exploration = .complete
  nonempty : node.vars ≠ []
  nodup : node.vars.Nodup
  vars : ∀ var, var ∈ node.vars ↔ spec.LeavesOpen names s node.search.kind var

end SearchNode

/-- The nodes of a tree are arranged for a search: a chain of those that hints ask for and those
that complete the search, and no variable of a completion is in another node. -/
structure SearchSpec.Arranges (spec : SearchSpec) (names : Names) (s : Store) (t : SearchTree) :
    Prop where
  labels : ∀ var, (∃ node ∈ t.nodes, var ∈ node.vars) ↔ spec.Claims var ∨ var ∈ names.decisions
  chain : t.IsChain
  preOrder : t.preOrder = List.range t.size
  nodes : ∃ leaves explicit completion, spec.Asks leaves ∧
    t.nodes.toList = explicit ++ completion ∧
    List.Forall₂ (SearchNode.IsOf · .explicit ·) explicit
      (leaves.filter fun leaf => leaf.2.vars ≠ []) ∧
    (∀ node ∈ completion, node.IsCompletion spec names s) ∧
    (completion.map fun node => node.search.kind).Sublist [.int, .bool, .set]
  apart : t.nodes.toList.Pairwise fun a b =>
    a.role = .completion ∨ b.role = .completion → a.vars.Disjoint b.vars

/-! ## What directives ask for -/

namespace SearchDirective

mutual

theorem flattens_leaves : ∀ directive : SearchDirective, directive.Flattens directive.leaves
  | .leaf kind search => .leaf kind search
  | .seq children => flattens_leavesOfAll children

theorem flattens_leavesOfAll :
    ∀ children : List SearchDirective, (seq children).Flattens (leavesOfAll children)
  | [] => .empty
  | child :: children => .cons (flattens_leaves child) (flattens_leavesOfAll children)

end

/-- A directive has only one list of leaves. -/
theorem Flattens.eq_leaves {directive : SearchDirective} {leaves : List (VarKind × VarSearch)}
    (flattens : directive.Flattens leaves) : leaves = directive.leaves := by
  induction flattens with
  | leaf => rfl
  | empty => rfl
  | cons _ _ ihHead ihRest =>
    rw [ihHead, ihRest]
    rfl

theorem mem_leavesOfAll {children : List SearchDirective} {leaf : VarKind × VarSearch} :
    leaf ∈ leavesOfAll children ↔ ∃ child ∈ children, leaf ∈ child.leaves := by
  induction children with
  | nil => simp [leavesOfAll]
  | cons child children ih => simp [leavesOfAll, ih]

/-- The variables that a directive claims are those that its leaves name. -/
theorem claims_iff {directive : SearchDirective} {var : VarId} :
    directive.Claims var ↔ var ∈ directive.claimed := by
  rw [directive.claimed_eq_flatMap, List.mem_flatMap]
  constructor
  · intro claims
    induction claims with
    | @leaf kind search named => exact ⟨(kind, search), List.mem_singleton_self _, named⟩
    | @seq child children member _ ih =>
      obtain ⟨leaf, inside, named⟩ := ih
      exact ⟨leaf, mem_leavesOfAll.2 ⟨child, member, inside⟩, named⟩
  · rintro ⟨leaf, inside, named⟩
    have flattens := directive.flattens_leaves
    generalize directive.leaves = leaves at inside flattens
    induction flattens with
    | leaf kind search =>
      obtain rfl := List.mem_singleton.1 inside
      exact .leaf named
    | empty => cases inside
    | cons _ _ ihHead ihRest =>
      rcases List.mem_append.1 inside with early | late
      · exact .seq List.mem_cons_self (ihHead early)
      · cases ihRest late with
        | seq member below => exact .seq (List.mem_cons_of_mem _ member) below

end SearchDirective

namespace SearchSpec

variable {spec : SearchSpec} {names : Names} {s : Store} {var : VarId}

theorem asks_leaves (spec : SearchSpec) : spec.Asks spec.leaves := by
  unfold leaves
  cases here : spec.directive with
  | none => exact .undirected here
  | some directive => exact .directed here directive.flattens_leaves

theorem claims_iff : spec.Claims var ↔ var ∈ spec.claimed := by
  unfold Claims claimed
  cases spec.directive with
  | none => simp
  | some directive => simp [SearchDirective.claims_iff]

end SearchSpec

namespace Names

theorem Declared.decisions {names : Names} (made : names.Declared) (vars : List VarId) :
    (names.addDecisions vars).Declared := by
  induction vars generalizing names with
  | nil => exact made
  | cons var rest ih => exact ih (made.decision var)

/-- The dictionary of a store is made entry by entry, too. -/
theorem declared_ofStore (s : Store) : (ofStore s).Declared := by
  unfold ofStore
  refine List.foldlRecOn s.ids _ .empty fun names made var _ => ?_
  cases s.declaration? var with
  | none => exact made
  | some v => exact ((made.scalar v.name var).decision var).output _

end Names

/-- Decision variables are declared once. -/
theorem Names.Declared.nodup {names : Names} (made : names.Declared) : names.decisions.Nodup := by
  induction made with
  | empty => exact .nil
  | scalar _ _ _ ih => exact ih
  | array _ _ _ ih => exact ih
  | output _ _ ih => exact ih
  | @decision n _ var ih =>
    unfold addDecision
    split
    · exact ih
    · rename_i new
      rw [List.contains_iff_mem] at new
      exact ih.append (List.nodup_singleton var) (by simpa using new)

/-! ## The stages of some leaves -/

namespace SearchSpec

variable {spec : SearchSpec} {names : Names} {s : Store} {seeds seeds' : Generator}

/-- Leaves with variables become nodes of their own, one after the other, if every stage becomes a
node. -/
theorem forall₂_of_compileAll {role : NodeRole} {leaves : List (VarKind × VarSearch)}
    {stages : List Stage} (compiled : compileAll s role leaves seeds = .ok stages seeds')
    {node : Nat → Stage → SearchNode}
    (keeps : ∀ i stage, (node i stage).search = stage.search ∧ (node i stage).role = stage.role) :
    List.Forall₂ (SearchNode.IsOf · role ·) (stages.mapIdx node)
      (leaves.filter fun leaf => leaf.2.vars ≠ []) := by
  induction leaves generalizing stages seeds seeds' node with
  | nil =>
    obtain ⟨rfl, -⟩ := pure_eq_ok.1 compiled
    exact .nil
  | cons leaf rest ih =>
    obtain ⟨first, _, here, compiled⟩ := bind_eq_ok.1 compiled
    obtain ⟨later, _, there, compiled⟩ := bind_eq_ok.1 compiled
    obtain ⟨rfl, -⟩ := pure_eq_ok.1 compiled
    obtain ⟨-, ⟨empty, rfl⟩ | ⟨nonempty, order, -, rfl⟩⟩ := CompiledSearch.compile_cases here
    · simpa [empty] using ih there keeps
    · rw [List.filter_cons_of_pos (by simpa using nonempty)]
      show List.Forall₂ _ (List.mapIdx node (_ :: later)) _
      rw [List.mapIdx_cons]
      refine .cons ?_ (ih there fun i => keeps (i + 1))
      obtain ⟨search, role⟩ := keeps 0 ⟨_, role⟩
      refine ⟨role, by rw [search], ?_, by rw [search]⟩
      rw [SearchNode.vars, search]
      exact CompiledSearch.settleVariables_perm leaf.2 s

/-- The kinds of variables are those that they are declared with. -/
theorem mem_kindsOf {vars : List VarId} {kinds : List (VarId × VarKind)}
    (found : kindsOf s vars = .ok kinds) :
    kinds.map Prod.fst = vars ∧ ∀ entry ∈ kinds,
      ∃ v, s.declaration? entry.1 = some v ∧ v.kind = entry.2 := by
  induction vars generalizing kinds with
  | nil =>
    cases found
    simp
  | cons first rest ih =>
    obtain ⟨v, declared, found⟩ := except_bind_eq_ok.1 found
    obtain ⟨later, there, found⟩ := except_bind_eq_ok.1 found
    cases found
    have declared := Store.declaration_eq_ok.1 (SolveError.ofStore_eq_ok.1 declared)
    obtain ⟨same, each⟩ := ih there
    exact ⟨by simp [same], List.forall_mem_cons.2 ⟨⟨v, declared, rfl⟩, each⟩⟩

/-- What completes a search, by kind: what hints leave open of this kind, each variable once. -/
theorem leavesOpen_of_completion (made : names.decisions.Nodup)
    {sets : List (VarKind × List VarId)} (completed : spec.completion names s = .ok sets) :
    sets.map Prod.fst = [.int, .bool, .set] ∧ ∀ entry ∈ sets, entry.2.Nodup ∧
      ∀ var, var ∈ entry.2 ↔ spec.LeavesOpen names s entry.1 var := by
  obtain ⟨kinds, found, completed⟩ := except_bind_eq_ok.1 completed
  cases completed
  obtain ⟨same, declared⟩ := mem_kindsOf found
  refine ⟨rfl, fun entry member => ?_⟩
  obtain ⟨kind, -, rfl⟩ := List.mem_map.1 member
  refine ⟨?_, fun var => ?_⟩
  · have nodup : (kinds.map Prod.fst).Nodup := same ▸ made.filter _
    exact nodup.sublist (List.filter_sublist.map _)
  · have listed : var ∈ kinds.map Prod.fst ↔ var ∈ names.decisions ∧ ¬ spec.Claims var := by
      rw [same, claims_iff]
      simp
    rw [mem_ofKind]
    constructor
    · intro inside
      obtain ⟨decision, unclaimed⟩ := listed.1 (List.mem_map_of_mem inside)
      exact ⟨decision, unclaimed, declared _ inside⟩
    · rintro ⟨decision, unclaimed, v, here, rfl⟩
      obtain ⟨⟨_, kind⟩, inside, rfl⟩ := List.mem_map.1 (listed.2 ⟨decision, unclaimed⟩)
      obtain ⟨v', there, rfl⟩ := declared _ inside
      obtain rfl := Option.some.inj (here.symm.trans there)
      exact inside

end SearchSpec

/-! ## The chain of some stages -/

namespace SearchTree

variable {t : SearchTree} {bound : Option VarId} {stages : List Stage}

theorem isChain_ofStages (bound : Option VarId) (stages : List Stage) :
    (ofStages bound stages).IsChain := by
  have node (id : Nat) (inside : id < (ofStages bound stages).size) : ∃ stage,
      (ofStages bound stages).node? id =
        some (chainNode bound stages.length stages.length id stage) := by
    rw [size_ofStages] at inside
    exact ⟨stages[id], by rw [node?_ofStages, List.getElem?_eq_getElem inside, Option.map_some]⟩
  constructor
  · intro id inside
    obtain ⟨stage, here⟩ := node id inside
    rw [parent?, here]
    rfl
  · intro id inside
    obtain ⟨stage, here⟩ := node id inside
    rw [children, here, size_ofStages]
    rfl

/-- The visits of a chain, from some node on. -/
theorem IsChain.visit (chain : t.IsChain) {visits id : Nat} (rest : id + visits = t.size) :
    t.visit visits [id] = List.range' id visits := by
  induction visits generalizing id with
  | zero => rfl
  | succ visits ih =>
    rw [SearchTree.visit, chain.children id (by omega), List.append_nil, List.range'_succ]
    congr 1
    by_cases more : id + 1 < t.size
    · rw [if_pos more]
      exact ih (by omega)
    · obtain rfl : visits = 0 := by omega
      rw [SearchTree.visit, List.range'_zero]

/-- In a chain the nodes are visited in the order of their numbers. -/
theorem IsChain.preOrder (chain : t.IsChain) : t.preOrder = List.range t.size := by
  unfold SearchTree.preOrder
  rcases Nat.eq_zero_or_pos t.size with empty | nonempty
  · rw [root?_eq_none_iff.2 empty, empty]
    rfl
  · rw [root?_of_size_pos nonempty, Option.toList_some, chain.visit (Nat.zero_add _),
      List.range_eq_range']

/-- The first child of a node of a chain is the node behind it. -/
theorem IsChain.head?_children {id : Nat} {node : SearchNode} (chain : t.IsChain)
    (here : t.node? id = some node) :
    node.children.head? = if id + 1 < t.size then some (id + 1) else none := by
  have listed := chain.children id (lt_size_of_node? here)
  rw [SearchTree.children, here] at listed
  simp only at listed
  rw [listed]
  split <;> rfl

theorem IsChain.eq_succ {id child : Nat} {node : SearchNode} (chain : t.IsChain)
    (here : t.node? id = some node) (next : node.children.head? = some child) :
    child = id + 1 := by
  rw [chain.head?_children here] at next
  split at next
  · exact (Option.some.inj next).symm
  · cases next

/-- A node of a chain without children is the last one. -/
theorem IsChain.succ_eq_size {id : Nat} {node : SearchNode} (chain : t.IsChain)
    (here : t.node? id = some node) (last : node.children.head? = none) : id + 1 = t.size := by
  rw [chain.head?_children here] at last
  split at last
  · cases last
  · rename_i none
    exact Nat.le_antisymm (lt_size_of_node? here) (Nat.le_of_not_lt none)

/-- A node of a chain is made of its stage. -/
theorem chainNode_keeps (bound : Option VarId) (size i : Nat) (stage : Stage) :
    (chainNode bound size size i stage).search = stage.search ∧
      (chainNode bound size size i stage).role = stage.role :=
  ⟨rfl, rfl⟩

theorem toList_nodes_ofStages (bound : Option VarId) (stages : List Stage) :
    (ofStages bound stages).nodes.toList =
      stages.mapIdx (chainNode bound stages.length stages.length) := by
  apply List.ext_getElem?
  intro i
  rw [Array.getElem?_toList, List.getElem?_mapIdx]
  exact node?_ofStages bound stages i

end SearchTree

/-! ## Trees that are built -/

theorem exists_mem_of_forall₂ {α β : Type} {related : α → β → Prop} {as : List α} {bs : List β}
    (each : List.Forall₂ related as bs) : ∀ a ∈ as, ∃ b ∈ bs, related a b := by
  induction each with
  | nil => simp
  | cons head _ ih =>
    refine List.forall_mem_cons.2 ⟨⟨_, List.mem_cons_self, head⟩, fun a member => ?_⟩
    obtain ⟨b, inside, holds⟩ := ih a member
    exact ⟨b, List.mem_cons_of_mem _ inside, holds⟩

namespace SearchSpec

variable {ρ : Type} [Reporter ρ] {spec : SearchSpec} {names : Names} {s : Store}
  {context : Context ρ} {t : SearchTree}

/-- The nodes that complete a search, by what completion finds for each kind. -/
theorem isCompletion_of_forall₂ {sets : List (VarKind × List VarId)} {nodes : List SearchNode}
    (each : ∀ entry ∈ sets, entry.2.Nodup ∧
      ∀ var, var ∈ entry.2 ↔ spec.LeavesOpen names s entry.1 var)
    (made : List.Forall₂ (SearchNode.IsOf · .completion ·) nodes
      ((sets.map fun (kind, vars) => (kind, VarSearch.plain vars)).filter
        fun leaf => leaf.2.vars ≠ [])) :
    (∀ node ∈ nodes, node.IsCompletion spec names s) ∧
      (nodes.map fun node => node.search.kind).Sublist (sets.map Prod.fst) := by
  constructor
  · intro node member
    obtain ⟨leaf, listed, role, kind, vars, exploration⟩ := exists_mem_of_forall₂ made node member
    obtain ⟨listed, nonempty⟩ := List.mem_filter.1 listed
    obtain ⟨⟨kind', vars'⟩, inside, rfl⟩ := List.mem_map.1 listed
    obtain ⟨nodup, open_⟩ := each _ inside
    refine ⟨role, exploration, ?_, vars.nodup_iff.2 nodup, fun var => ?_⟩
    · intro empty
      rw [empty, List.nil_perm] at vars
      exact of_decide_eq_true nonempty vars
    · rw [vars.mem_iff, kind]
      exact open_ var
  · have kinds : nodes.map (fun node => node.search.kind) =
        (((sets.map fun (kind, vars) => (kind, VarSearch.plain vars)).filter
          fun leaf => leaf.2.vars ≠ []).map Prod.fst) := by
      rw [← List.forall₂_eq_eq_eq, List.forall₂_map_left_iff, List.forall₂_map_right_iff]
      exact made.imp fun _ _ node => node.kind
    rw [kinds]
    refine (List.filter_sublist.map _).trans ?_
    rw [List.map_map]
    exact .refl _

/-- No variable of a node that completes a search is in another node, since hints do not name it
and it has only one kind. -/
theorem pairwise_disjoint_of_forall₂ {explicit completion : List SearchNode}
    (asked : List.Forall₂ (SearchNode.IsOf · .explicit ·) explicit
      (spec.leaves.filter fun leaf => leaf.2.vars ≠ []))
    (completes : ∀ node ∈ completion, node.IsCompletion spec names s)
    (kinds : (completion.map fun node => node.search.kind).Sublist [.int, .bool, .set]) :
    (explicit ++ completion).Pairwise fun a b =>
      a.role = .completion ∨ b.role = .completion → a.vars.Disjoint b.vars := by
  have explicit_role (node : SearchNode) (member : node ∈ explicit) : node.role = .explicit := by
    obtain ⟨leaf, -, made⟩ := exists_mem_of_forall₂ asked node member
    exact made.role
  refine List.pairwise_append.2 ⟨?_, ?_, ?_⟩
  · refine List.pairwise_of_forall_mem_list fun a first b second role => ?_
    rw [explicit_role a first, explicit_role b second] at role
    simp at role
  · have different : (completion.map fun node => node.search.kind).Nodup :=
      List.Nodup.sublist kinds (by decide)
    refine (List.pairwise_map.1 different).imp_of_mem ?_
    intro a b first second apart _ var left right
    obtain ⟨v, declared, kind⟩ := (((completes a first).vars var).1 left).declared
    obtain ⟨v', declared', kind'⟩ := (((completes b second).vars var).1 right).declared
    obtain rfl := Option.some.inj (declared.symm.trans declared')
    exact apart (kind.symm.trans kind')
  · intro a first b second _ var left right
    obtain ⟨leaf, listed, node⟩ := exists_mem_of_forall₂ asked a first
    refine (((completes b second).vars var).1 right).unclaimed (claims_iff.2 ?_)
    exact mem_claimed_iff.2 ⟨leaf, (List.mem_filter.1 listed).1, node.vars.mem_iff.1 left⟩

/-- The nodes of a tree that is built are arranged for the search. -/
theorem arranges_of_build (made : names.Declared)
    (outcome : (spec.build names s context).outcome = .ok (.tree t)) :
    spec.Arranges names s t := by
  obtain ⟨stages, seeds, objective, compiled, -, -, rfl, -⟩ := exists_of_build outcome
  obtain ⟨explicit, completion, sets, _, asked, completed, rest, rfl⟩ := exists_of_stages compiled
  obtain ⟨kinds, each⟩ := leavesOpen_of_completion made.nodup completed
  generalize objective.map Objective.bound = bound at outcome ⊢
  have nodes := SearchTree.toList_nodes_ofStages bound (explicit ++ completion)
  rw [List.mapIdx_append] at nodes
  have keeps := SearchTree.chainNode_keeps bound (explicit ++ completion).length
  have first := forall₂_of_compileAll asked keeps
  have second := forall₂_of_compileAll rest fun i => keeps (i + explicit.length)
  obtain ⟨completes, order⟩ := isCompletion_of_forall₂ each second
  rw [kinds] at order
  have chain := SearchTree.isChain_ofStages bound (explicit ++ completion)
  refine ⟨fun var => ?_, chain, chain.preOrder,
    ⟨_, _, _, spec.asks_leaves, nodes, first, completes, order⟩, ?_⟩
  · rw [exists_mem_vars_of_build outcome, claims_iff]
  · rw [nodes]
    exact pairwise_disjoint_of_forall₂ first completes order

/-- Every node has something to decide. -/
theorem Arranges.vars_ne_nil (arranges : spec.Arranges names s t) :
    ∀ node ∈ t.nodes, node.vars ≠ [] := by
  obtain ⟨leaves, explicit, completion, -, nodes, asked, completes, -⟩ := arranges.nodes
  intro node member
  rw [← Array.mem_toList_iff, nodes, List.mem_append] at member
  rcases member with first | second
  · obtain ⟨leaf, listed, made⟩ := exists_mem_of_forall₂ asked node first
    intro empty
    have vars := made.vars
    rw [empty, List.nil_perm] at vars
    exact of_decide_eq_true (List.mem_filter.1 listed).2 vars
  · exact (completes node second).nonempty

/-- Building a search succeeds trivially if nothing has to be decided, and otherwise the nodes of
the tree are those of the leaves and of what they leave open, in one chain. -/
theorem arranges_of_build_eq_ok (made : names.Declared) {outcome : BuildOutcome}
    (built : (spec.build names s context).outcome = .ok outcome) :
    (outcome = .trivial ↔ ∀ var, ¬ (spec.Claims var ∨ var ∈ names.decisions)) ∧
      ∀ t, outcome = .tree t → spec.Arranges names s t := by
  refine ⟨⟨?_, fun nothing => ?_⟩, ?_⟩
  · rintro rfl var
    rw [claims_iff]
    exact not_mem_of_build_trivial built var
  · cases outcome with
    | trivial => rfl
    | tree t =>
      have arranges := arranges_of_build made built
      obtain ⟨stages, seeds, objective, -, nonempty, -, rfl, -⟩ := exists_of_build built
      have first : 0 < (SearchTree.ofStages (objective.map Objective.bound) stages).nodes.size :=
        lt_of_lt_of_eq (List.length_pos_of_ne_nil nonempty) (SearchTree.size_ofStages _ stages).symm
      obtain ⟨var, inside⟩ :=
        List.exists_mem_of_ne_nil _ (arranges.vars_ne_nil _ (Array.getElem_mem first))
      exact absurd ((arranges.labels var).1 ⟨_, Array.getElem_mem first, inside⟩) (nothing var)
  · rintro t rfl
    exact arranges_of_build made built

/-- A nested sequence with an empty leaf: one node that a hint asks for, and one for each kind of
decision variables that it leaves open. -/
theorem arranges_of_build_eq_ok_nested :
    ∃ (spec : SearchSpec) (names : Names) (s : Store) (context : Context NoReporter)
      (t : SearchTree), names.Declared ∧
      (spec.build names s context).outcome = .ok (.tree t) ∧ spec.Arranges names s t ∧
      t.size = 4 ∧ spec.Claims ⟨1⟩ := by
  let s := StoreOperation.applyAll Store.empty
    [.declareInt "x" 0 3, .declareInt "y" 0 3, .declareBool "b", .declareSet "z" [] [1, 2]]
  let spec : SearchSpec := ⟨.satisfy, none,
    some (.seq [.leaf .int (.plain []), .seq [.seq [],
      .leaf .int ⟨[⟨1⟩, ⟨1⟩], some .firstFail, none, .lds 1⟩]])⟩
  let names := Names.empty.addDecisions [⟨0⟩, ⟨1⟩, ⟨2⟩, ⟨3⟩, ⟨0⟩]
  let context : Context NoReporter := Context.ofListener (Listener.all none)
  let t := SearchTree.ofStages none
    [⟨⟨.int, [⟨1⟩, ⟨1⟩], .firstFail, .min, .lds 1, .ascending⟩, .explicit⟩,
      ⟨⟨.int, [⟨0⟩], .inputOrder, .min, .complete, .ascending⟩, .completion⟩,
      ⟨⟨.bool, [⟨2⟩], .inputOrder, .min, .complete, .ascending⟩, .completion⟩,
      ⟨⟨.set, [⟨3⟩], .inputOrder, .min, .complete, .smallestElement⟩, .completion⟩]
  have made : names.Declared := Names.Declared.empty.decisions _
  have built : (spec.build names s context).outcome = .ok (.tree t) := by decide +kernel
  have claims : spec.Claims ⟨1⟩ := claims_iff.2 (by decide)
  exact ⟨spec, names, s, context, t, made, built, (arranges_of_build_eq_ok made built).2 t rfl, rfl,
    claims⟩

end SearchSpec

end StagedSearch
