/-
# The frames of a search

What a label frame comes to, for every exploration, listener and clock: the leaves that it
hands over are as described, and the store is put back (`visited_label`). A frame that lets the
search go on, in a tree that leaves no candidates out, covers every settled table below the
store; for this the frames that may still nest have to be as many as the nodes and decisions
ahead.

The induction is on the frames, and inside a frame on the candidates that are left. Both
carry the same invariant, and a candidate adds a piece to the pieces before it.
-/

import StagedSearch.Proofs.Search.Running

namespace StagedSearch

namespace SearchTree

def varsFrom (t : SearchTree) (id : Nat) : List VarId :=
  (t.nodes.toList.drop id).flatMap SearchNode.vars

/-- How much there is to decide about the variables of a tree. -/
def toil (t : SearchTree) (s : Store) : Nat := totalSize s.domains.effort t.vars

variable {t : SearchTree}

theorem varsFrom_of_node? {id : Nat} {node : SearchNode} (here : t.node? id = some node) :
    t.varsFrom id = node.vars ++ t.varsFrom (id + 1) := by
  have found : t.nodes.toList[id]? = some node := by simpa [node?] using here
  obtain ⟨inside, rfl⟩ := List.getElem?_eq_some_iff.1 found
  unfold varsFrom
  rw [List.drop_eq_getElem_cons inside, List.flatMap_cons]

theorem varsFrom_of_size_le {id : Nat} (outside : t.size ≤ id) : t.varsFrom id = [] := by
  unfold varsFrom
  rw [List.drop_eq_nil_of_le (by simpa [size] using outside), List.flatMap_nil]

theorem mem_varsFrom_zero {var : VarId} :
    var ∈ t.varsFrom 0 ↔ ∃ node ∈ t.nodes, var ∈ node.vars := by
  simp [varsFrom]

theorem mem_insertVariable {var other : VarId} {vars : List VarId} :
    other ∈ insertVariable var vars ↔ other = var ∨ other ∈ vars := by
  induction vars with
  | nil => simp [insertVariable]
  | cons v rest ih =>
    unfold insertVariable
    split
    · simp
    · split
      · rename_i same
        subst same
        simp
      · simp only [List.mem_cons, ih]
        grind

/-- The variables of a tree are those of its nodes. -/
theorem mem_vars {var : VarId} : var ∈ t.vars ↔ var ∈ t.varsFrom 0 := by
  have folded (list : List VarId) : var ∈ list.foldr insertVariable [] ↔ var ∈ list := by
    induction list with
    | nil => simp
    | cons v rest ih => simp [mem_insertVariable, ih]
  unfold vars varsFrom
  rw [folded, List.drop_zero]

theorem mem_vars_of_node? {id : NodeId} {node : SearchNode} (here : t.node? id = some node)
    {var : VarId} (member : var ∈ node.vars) : var ∈ t.vars := by
  have found : t.nodes.toList[id]? = some node := by simpa [node?] using here
  rw [mem_vars, varsFrom, List.drop_zero]
  exact List.mem_flatMap.2 ⟨node, List.mem_of_getElem? found, member⟩

theorem totalSize_le {α : Type} {size size' : α → Nat} (list : List α)
    (le : ∀ a ∈ list, size a ≤ size' a) : totalSize size list ≤ totalSize size' list := by
  induction list with
  | nil => simp
  | cons a rest ih =>
    have here := le a (by simp)
    have later := ih fun b member => le b (by simp [member])
    simp only [totalSize_cons]
    omega

theorem totalSize_lt {α : Type} {size size' : α → Nat} (list : List α)
    (le : ∀ a ∈ list, size a ≤ size' a) (less : ∃ a ∈ list, size a < size' a) :
    totalSize size list < totalSize size' list := by
  induction list with
  | nil => simp at less
  | cons a rest ih =>
    have here := le a (by simp)
    have later := totalSize_le rest fun b member => le b (by simp [member])
    simp only [totalSize_cons]
    obtain ⟨b, member, less⟩ := less
    rcases List.mem_cons.1 member with rfl | member
    · omega
    · have := ih (fun c member => le c (by simp [member])) ⟨b, member, less⟩
      omega

/-- Further down there is no more to decide. -/
theorem toil_le {s u : Store} (descends : s.Descends u) (formed : s.Formed) :
    t.toil u ≤ t.toil s :=
  totalSize_le t.vars fun var _ => descends.effort_le formed var

/-- A tree is complete if its nodes explore all candidates. -/
theorem isComplete_iff :
    t.isComplete = true ↔ ∀ node ∈ t.nodes, node.search.exploration = .complete := by
  have plain (node : SearchNode) :
      node.decorators.isEmpty = true ↔ node.search.exploration = .complete := by
    unfold SearchNode.decorators
    cases node.search.exploration <;> simp [Exploration.decorators]
  simp only [isComplete, List.all_eq_true, Array.mem_toList_iff, plain]

/-- A node of a complete tree leaves no candidates out. -/
theorem decorators_of_isComplete (complete : t.isComplete = true) {id : NodeId}
    {node : SearchNode} (here : t.node? id = some node) : node.decorators = [] := by
  have explores := isComplete_iff.1 complete node (Array.mem_of_getElem? here)
  rw [SearchNode.decorators, explores]
  rfl

/-- There is less to decide when a variable of the tree has less. -/
theorem toil_lt {s u : Store} (descends : s.Descends u) (formed : s.Formed) {var : VarId}
    (member : var ∈ t.vars) (less : u.domains.effort var < s.domains.effort var) :
    t.toil u < t.toil s :=
  totalSize_lt t.vars (fun var _ => descends.effort_le formed var) ⟨var, member, less⟩

end SearchTree

namespace SearchState

variable {ρ : Type} [Reporter ρ] {t : SearchTree} {bound : Option VarId}
  {declarations : Array Variable} {vars : List VarId}

/-- What a part of the search comes to. If there are frames `enough` for it, no candidates are
left out, and the search may go on, then it covers what lies below the store. -/
def Visited (t : SearchTree) (bound : Option VarId) (declarations : Array Variable)
    (vars : List VarId) (enough : Prop) (st : SearchState ρ) (outcome : Flow × SearchState ρ) :
    Prop :=
  ∃ leaves, Explored bound vars st outcome.2 leaves ∧ Running t bound declarations outcome.2 ∧
    (t.isComplete = true → enough → outcome.1 = .proceed →
      st.store.Covers vars bound outcome.2.context.incumbent? leaves)

/-- Accounts that are kept before and after do not matter. -/
theorem Visited.between {enough : Prop} {st before after st' : SearchState ρ} {flow : Flow}
    (visited : Visited t bound declarations vars enough before (flow, after))
    (start : Quiet t st before) (finish : Quiet t after st') :
    Visited t bound declarations vars enough st (flow, st') := by
  obtain ⟨leaves, explored, running, complete⟩ := visited
  refine ⟨leaves, explored.between (.of_quiet start vars) (.of_quiet finish vars),
    running.of_quiet finish, fun whole enough proceeds => ?_⟩
  have covers := complete whole enough proceeds
  exact start.store ▸ finish.incumbent ▸ covers

/-- What suffices may be asked for in another form. -/
theorem Visited.of_enough {enough enough' : Prop} {st : SearchState ρ}
    {outcome : Flow × SearchState ρ}
    (visited : Visited t bound declarations vars enough st outcome)
    (stronger : enough' → enough) : Visited t bound declarations vars enough' st outcome := by
  obtain ⟨leaves, explored, running, complete⟩ := visited
  exact ⟨leaves, explored, running, fun whole many => complete whole (stronger many)⟩

/-- The frames of a node come to what they come to without the accounts of the node. -/
theorem Visited.within {enough : Prop} {st : SearchState ρ} {id : NodeId}
    {frames : SearchState ρ → Flow × SearchState ρ}
    (visited : Visited t bound declarations vars enough (st.setState id .labeling)
      (frames (st.setState id .labeling))) :
    Visited t bound declarations vars enough st (st.within id frames) := by
  unfold SearchState.within
  cases came : frames (st.setState id .labeling) with
  | mk flow st' =>
    rw [came] at visited
    exact visited.between (quiet_setState t st id .labeling) (quiet_setState t st' id _)

/-! ## Solutions -/

omit [Reporter ρ] in
/-- At an optimizing node the incumbent becomes the value of the bound. -/
theorem incumbent_setIncumbent (st : SearchState ρ) {node : SearchNode}
    (bounded : node.bound = bound) (optimizing : node.optimizing = bound.isSome)
    (objective : bound.isSome = true → st.context.objective.isSome = true) :
    (st.setIncumbent node).context.objective.isSome = st.context.objective.isSome ∧
      (st.setIncumbent node).context.incumbent? =
        Store.advance bound st.context.incumbent? st.store := by
  subst bounded
  unfold setIncumbent Store.advance
  rw [optimizing]
  cases bound : node.bound with
  | none => exact ⟨rfl, rfl⟩
  | some var =>
    rw [bound] at objective
    obtain ⟨o, here⟩ := Option.isSome_iff_exists.1 (objective rfl)
    simp only [Option.isSome_some, if_true]
    cases reached : boundValue? st.store (some var) with
    | none => exact ⟨rfl, rfl⟩
    | some value =>
      constructor <;> simp [Context.note, Context.setIncumbent, Context.incumbent?, here]

/-- At the last node the store itself is handed over. -/
theorem visited_acceptAt (searchable : t.Searchable bound declarations) {st : SearchState ρ}
    (running : Running t bound declarations st) (stable : st.store.domains.Stable st.store.rules)
    (improves : st.store.domains.Improves bound st.context.incumbent?)
    (decided : ∀ var ∈ vars, st.store.domains.Decided var) {id : Nat} {node : SearchNode}
    (here : t.node? id = some node) (last : id + 1 = t.size) (enough : Prop) :
    Visited t bound declarations vars enough st (st.acceptAt id node) := by
  obtain ⟨store, progress, listener⟩ := setIncumbent_keeps (st.handed id) node
  obtain ⟨objective, incumbent⟩ :=
    incumbent_setIncumbent (st.handed id) (searchable.bounds id node here)
      (searchable.optimizing id node here last) running.objective
  rw [acceptAt_eq]
  have formed := running.formed
  have explored : Explored bound vars st ((st.handed id).setIncumbent node) [st.store] :=
    { store := store
      listener := listener
      incumbent := incumbent
      leaf := by
        intro u member
        obtain rfl := List.mem_singleton.1 member
        exact formed.leaf stable decided bound
      apart := List.pairwise_singleton _ _
      improving := ⟨improves, trivial⟩ }
  refine ⟨[st.store], explored, ?_, fun _ _ _ => ?_⟩
  · refine ⟨store ▸ running.declared, store ▸ formed, progress ▸ (quiet_handed t st id).orders
      running.orders,
      fun some => objective.trans (running.objective some), ?_⟩
    rw [explored.incumbent]
    refine running.improvable.advanceAll fun u member => ?_
    obtain rfl := List.mem_singleton.1 member
    exact ⟨formed, running.declared⟩
  · exact fun p _ within _ _ => ⟨st.store, by simp, within⟩

/-! ## Candidates -/

omit [Reporter ρ] in
/-- What a candidate has led to is as the candidate says. -/
theorem Entered.obeys_leaf {st st' : SearchState ρ} {choice : Choice} {u : Store}
    (entered : Entered t bound choice st st') (leaf : Store.Leaf bound vars st'.store u) :
    u.domains.Obeys choice :=
  leaf.descends.obeys entered.descends.formed.canonical entered.obeys

/-- The leaves below a store that was entered by opening a level are leaves below the store in
which the level was opened, once it is closed, if entering it has spared the tables that agree
with a leaf. -/
theorem Explored.popLevel {st st₁ st' : SearchState ρ} {leaves : List Store}
    (explored : Explored bound vars st₁ st' leaves) (descends : st.store.Descends st₁.store)
    (back : st₁.store.popLevel = st.store)
    (listener : st₁.context.listener = st.context.listener)
    (incumbent : st₁.context.incumbent? = st.context.incumbent?)
    (spared : ∀ u, Store.Leaf bound vars st₁.store u → ∀ p : DomainTable,
      p.Settled st.store.rules → p.Within st.store.domains →
      (∀ var ∈ vars, p.get? var = u.domains.get? var) →
      (∀ var, bound = some var → p.get? var = u.domains.get? var) →
      p.Within st₁.store.domains) :
    Explored bound vars st st'.popLevel leaves := by
  refine ⟨?_, ?_, ?_, fun u here => ?_, explored.apart, ?_⟩
  · show st'.store.popLevel = st.store
    rw [explored.store, back]
  · rw [← listener]
    exact explored.listener
  · rw [← incumbent]
    exact explored.incumbent
  · have leaf := explored.leaf u here
    have rules := descends.rules
    refine ⟨descends.trans leaf.descends, rules ▸ leaf.stable, leaf.decided, ?_⟩
    intro p settled within agrees agrees'
    exact leaf.greatest p (rules.symm ▸ settled)
      (spared u leaf p settled within agrees agrees') agrees agrees'
  · rw [← incumbent]
    exact explored.improving

/-- The leaves below a candidate are leaves below the store in which it was tried. -/
theorem Explored.lift {st st₁ st' : SearchState ρ} (running : Running t bound declarations st)
    {id : NodeId} {choice : Choice} (admitted : st.decide id bound choice = (true, st₁))
    (member : choice.var ∈ vars) {leaves : List Store}
    (explored : Explored bound vars st₁ st' leaves) :
    Explored bound vars st st'.popLevel leaves := by
  have entered := entered_decide running.formed admitted t
  apply explored.popLevel entered.descends entered.back entered.listener entered.incumbent
  intro u leaf p settled within agrees agrees'
  have obeys : p.Obeys choice :=
    (entered.obeys_leaf leaf).congr (agrees choice.var member).symm
  have improves : p.Improves bound st.context.incumbent? := by
    intro var best bounded incumbent value holds
    apply entered.improves var best bounded incumbent value
    apply leaf.descends.within.holds
    unfold DomainTable.Holds at holds ⊢
    rwa [DomainTable.int?_congr (agrees' var bounded)] at holds
  obtain ⟨st₂, again, below⟩ :=
    decide_of_settled running settled within obeys improves
  obtain rfl := (Prod.mk.inj (admitted.symm.trans again)).2
  exact below

theorem Visited.running_popLevel {st st₁ st' : SearchState ρ}
    (running : Running t bound declarations st) {id : NodeId} {choice : Choice}
    (admitted : st.decide id bound choice = (true, st₁))
    (member : choice.var ∈ vars) {enough : Prop} {flow : Flow}
    (visited : Visited t bound declarations vars enough st₁ (flow, st')) :
    Running t bound declarations st'.popLevel := by
  obtain ⟨leaves, explored, running', -⟩ := visited
  exact running'.popLevel running (explored.lift running admitted member).store

/-- Stores that are as opposed choices say differ in the variable of the choices. -/
theorem get?_ne_of_opposed {u w : DomainTable} {first second : Choice}
    (opposed : first.Opposed second) (canonical : w.Canonical) (left : u.Obeys first)
    (right : w.Obeys second) : u.get? first.var ≠ w.get? first.var :=
  fun same => opposed w canonical (left.congr same) right

/-- What the trials of some candidates come to: leaves that are as one of them says. If there
are frames `enough` below each of them, no candidates are left out, and the search may go on,
then no settled table is lost that is as one of them says. -/
def Sifted (t : SearchTree) (bound : Option VarId) (declarations : Array Variable)
    (vars : List VarId) (enough : Store → Prop) (choices : List Choice) (st : SearchState ρ)
    (outcome : Flow × SearchState ρ) : Prop :=
  ∃ leaves, Explored bound vars st outcome.2 leaves ∧ Running t bound declarations outcome.2 ∧
    (∀ u ∈ leaves, ∃ choice ∈ choices, u.domains.Obeys choice) ∧
    (t.isComplete = true →
      (∀ choice ∈ choices, ∀ u : Store, st.store.Descends u → u.domains.Obeys choice →
        enough u) →
      outcome.1 = .proceed → ∀ choice ∈ choices, ∀ p : DomainTable, p.Settled st.store.rules →
        p.Within st.store.domains → (∀ var ∈ vars, p.Decided var) → p.Obeys choice →
        p.Improves bound outcome.2.context.incumbent? → ∃ u ∈ leaves, p.Within u.domains)

variable {enough : Store → Prop} {choice : Choice} {choices : List Choice}

/-- Without candidates there is nothing to try. -/
theorem sifted_nil {st : SearchState ρ} (running : Running t bound declarations st) :
    Sifted t bound declarations vars enough [] st (.proceed, st) :=
  ⟨[], .of_quiet (.refl t st) vars, running, by simp, by simp⟩

/-- Trials that end early do not let the search go on, or the tree leaves candidates out. -/
theorem Sifted.of_quiet {st st' : SearchState ρ} (running : Running t bound declarations st)
    (quiet : Quiet t st st') {flow : Flow} (early : t.isComplete = true → flow ≠ .proceed) :
    Sifted t bound declarations vars enough choices st (flow, st') :=
  ⟨[], .of_quiet quiet vars, running.of_quiet quiet, by simp,
    fun whole _ proceeds => absurd proceeds (early whole)⟩

/-- Accounts that are kept before do not matter. -/
theorem Sifted.after_quiet {st st' : SearchState ρ} {outcome : Flow × SearchState ρ}
    (sifted : Sifted t bound declarations vars enough choices st' outcome)
    (quiet : Quiet t st st') : Sifted t bound declarations vars enough choices st outcome := by
  obtain ⟨leaves, explored, running, obeyed, complete⟩ := sifted
  refine ⟨leaves, explored.between (.of_quiet quiet vars) (.of_quiet (.refl t _) vars), running,
    obeyed, fun whole frames proceeds => ?_⟩
  have covers := complete whole (by rwa [quiet.store]) proceeds
  rwa [quiet.store] at covers

/-- A candidate that fails loses no settled table, since every one that is as it says and
improves would have made it succeed. -/
theorem Sifted.cons_refused {st st' : SearchState ρ} (running : Running t bound declarations st)
    {id : NodeId} (refused : st.decide id bound choice = (false, st'))
    {outcome : Flow × SearchState ρ}
    (sifted : Sifted t bound declarations vars enough choices st' outcome) :
    Sifted t bound declarations vars enough (choice :: choices) st outcome := by
  have quiet := quiet_decide running.formed refused t
  obtain ⟨leaves, explored, running', obeyed, complete⟩ := sifted.after_quiet quiet
  refine ⟨leaves, explored, running', fun u member => ?_, fun whole frames proceeds => ?_⟩
  · obtain ⟨other, later, obeys⟩ := obeyed u member
    exact ⟨other, List.mem_cons_of_mem choice later, obeys⟩
  · have covers := complete whole
      (fun other later => frames other (List.mem_cons_of_mem choice later)) proceeds
    intro other member p settled within decided obeys improves
    rcases List.mem_cons.1 member with rfl | later
    · rw [explored.incumbent] at improves
      have improved := explored.improving.earlier
        (fun u member => (explored.sound u member).canonical) improves
      obtain ⟨_, again, -⟩ :=
        decide_of_settled running settled within obeys improved
      cases refused.symm.trans again
    · exact covers other later p settled within decided obeys improves

/-- A candidate that succeeds adds the leaves below it to those of the later candidates. -/
theorem Sifted.cons_entered {st st₁ st' : SearchState ρ} (running : Running t bound declarations st)
    {id : NodeId} (admitted : st.decide id bound choice = (true, st₁)) (member : choice.var ∈ vars)
    (visited : Visited t bound declarations vars (enough st₁.store) st₁ (.proceed, st'))
    {outcome : Flow × SearchState ρ}
    (sifted : Sifted t bound declarations vars enough choices st'.popLevel outcome)
    (opposed : ∀ other ∈ choices, choice.Opposed other) :
    Sifted t bound declarations vars enough (choice :: choices) st outcome := by
  have entered := entered_decide running.formed admitted t
  obtain ⟨first, explored₁, running₁, complete₁⟩ := visited
  obtain ⟨second, explored₂, running₂, obeyed₂, complete₂⟩ := sifted
  have lifted := explored₁.lift running admitted member
  have obeyed₁ (u : Store) (here : u ∈ first) : u.domains.Obeys choice :=
    entered.obeys_leaf (explored₁.leaf u here)
  refine ⟨first ++ second, lifted.append explored₂ ?_, running₂, ?_,
    fun whole frames proceeds => ?_⟩
  · intro u here w there
    obtain ⟨other, later, obeys⟩ := obeyed₂ w there
    exact ⟨choice.var, member, get?_ne_of_opposed (opposed other later)
      (explored₂.sound w there).canonical (obeyed₁ u here) obeys⟩
  · intro u here
    rcases List.mem_append.1 here with here | there
    · exact ⟨choice, List.mem_cons_self, obeyed₁ u here⟩
    · obtain ⟨other, later, obeys⟩ := obeyed₂ u there
      exact ⟨other, List.mem_cons_of_mem choice later, obeys⟩
  · have covers₁ := complete₁ whole
      (frames choice List.mem_cons_self _ entered.descends entered.obeys) rfl
    have covers₂ := complete₂ whole (fun other later u descends =>
      frames other (List.mem_cons_of_mem choice later) u (lifted.store ▸ descends)) proceeds
    intro other here p settled within decided obeys improves
    have improves₁ : p.Improves bound st'.popLevel.context.incumbent? := by
      rw [explored₂.incumbent] at improves
      exact explored₂.improving.earlier (fun u member => (explored₂.sound u member).canonical)
        improves
    rcases List.mem_cons.1 here with rfl | later
    · have improves₀ : p.Improves bound st.context.incumbent? := by
        rw [lifted.incumbent] at improves₁
        exact lifted.improving.earlier (fun u member => (lifted.sound u member).canonical)
          improves₁
      obtain ⟨st₂, again, below⟩ :=
        decide_of_settled running settled within obeys improves₀
      obtain rfl := (Prod.mk.inj (admitted.symm.trans again)).2
      obtain ⟨u, found, under⟩ := covers₁ p (entered.descends.rules.symm ▸ settled) below decided
        improves₁
      exact ⟨u, List.mem_append_left _ found, under⟩
    · obtain ⟨u, found, under⟩ := covers₂ other later p (lifted.store.symm ▸ settled)
        (lifted.store.symm ▸ within) decided obeys improves
      exact ⟨u, List.mem_append_right _ found, under⟩

/-- A frame below that ends the search ends the trials, and no claim is made of what they left
out. -/
theorem Sifted.cons_ended {st st₁ st' : SearchState ρ} (running : Running t bound declarations st)
    {id : NodeId} (admitted : st.decide id bound choice = (true, st₁)) (member : choice.var ∈ vars)
    {flow : Flow} (visited : Visited t bound declarations vars (enough st₁.store) st₁ (flow, st'))
    (ends : flow ≠ .proceed) :
    Sifted t bound declarations vars enough (choice :: choices) st (flow, st'.popLevel) := by
  have entered := entered_decide running.formed admitted t
  obtain ⟨leaves, explored, running', -⟩ := visited
  have lifted := explored.lift running admitted member
  refine ⟨leaves, lifted, ?_, fun u here => ?_, fun _ _ proceeds => absurd proceeds ends⟩
  · exact running'.popLevel running lifted.store
  · exact ⟨choice, List.mem_cons_self, entered.obeys_leaf (explored.leaf u here)⟩

/-- The trials of candidates, by induction on the candidates that are left. -/
theorem sifted_tryCandidates (searchable : t.Searchable bound declarations)
    {below : PathState → SearchState ρ → Flow × SearchState ρ} {id : NodeId} {node : SearchNode}
    (here : t.node? id = some node)
    (deeper : ∀ path st, Running t bound declarations st →
      st.store.domains.Stable st.store.rules →
      st.store.domains.Improves bound st.context.incumbent? →
      Visited t bound declarations vars (enough st.store) st (below path st))
    {var : VarId} (member : var ∈ vars) (path : PathState) (size index : Nat)
    (candidates : Candidates) (st : SearchState ρ) (running : Running t bound declarations st)
    (about : ∀ choice ∈ candidates.toList, choice.var = var)
    (opposed : candidates.toList.Pairwise Choice.Opposed) :
    Sifted t bound declarations vars enough candidates.toList st
      (SearchTree.tryCandidates below id node path size index candidates st) := by
  have bounded := searchable.bounds id node here
  generalize meant : candidates.toList = choices at about opposed ⊢
  induction choices generalizing candidates index st with
  | nil =>
    rw [SearchTree.tryCandidates, Candidates.next?_of_toList_nil meant]
    exact sifted_nil running
  | cons choice choices ih =>
    obtain ⟨rest, taken, left⟩ := Candidates.next?_of_toList_cons meant
    have own : choice.var ∈ vars := by
      rw [about choice List.mem_cons_self]
      exact member
    obtain ⟨others, opposed⟩ := List.pairwise_cons.1 opposed
    have next (st : SearchState ρ) (running : Running t bound declarations st) :
        Sifted t bound declarations vars enough choices st
          (SearchTree.tryCandidates below id node path size (index + 1) rest st) :=
      ih (index + 1) rest st running left
        (fun other later => about other (List.mem_cons_of_mem choice later)) opposed
    rw [SearchTree.tryCandidates, taken]
    have quiet₁ := quiet_expired t st id
    cases came : st.expired id with
    | mk expired st₁ =>
      rw [came] at quiet₁
      have running₁ := running.of_quiet quiet₁
      cases expired with
      | true =>
        exact .of_quiet running (quiet₁.trans (quiet_timeOut t st₁)) (by simp)
      | false =>
        simp only
        refine Sifted.after_quiet ?_ quiet₁
        cases step : Decorator.stepAll? node.decorators path index size with
        | none =>
          refine .of_quiet running₁ (.refl t st₁) fun whole => ?_
          rw [SearchTree.decorators_of_isComplete whole here] at step
          cases step
        | some path' =>
          rw [bounded]
          cases tried : st₁.decide id bound choice with
          | mk consistent st₂ =>
            cases consistent with
            | false =>
              have running₂ := running₁.of_quiet (quiet_decide running₁.formed tried t)
              exact .cons_refused running₁ tried (next st₂ running₂)
            | true =>
              have entered := entered_decide running₁.formed tried t
              obtain ⟨running₂, stable, improves⟩ := entered.ready running₁
              have visited := deeper path' st₂ running₂ stable improves
              simp only
              cases came' : below path' st₂ with
              | mk flow st₃ =>
                rw [came'] at visited
                have running₃ := visited.running_popLevel running₁ tried own
                cases flow with
                | proceed =>
                  exact .cons_entered running₁ tried own visited
                    (next st₃.popLevel running₃) others
                | stop => exact .cons_ended running₁ tried own visited (by simp)
                | timedOut => exact .cons_ended running₁ tried own visited (by simp)

/-- If the candidates part a variable, then trying them all covers what lies below the store. -/
theorem Sifted.visited {enough' : Prop} {st : SearchState ρ} {outcome : Flow × SearchState ρ}
    {var : VarId} (parts : st.store.domains.Parts var choices) (member : var ∈ vars)
    (sifted : Sifted t bound declarations vars enough choices st outcome)
    (frames : enough' → ∀ u : Store, st.store.Descends u →
      u.domains.effort var < st.store.domains.effort var → enough u) :
    Visited t bound declarations vars enough' st outcome := by
  obtain ⟨leaves, explored, running, -, complete⟩ := sifted
  refine ⟨leaves, explored, running, fun whole many proceeds => ?_⟩
  have covers := complete whole (fun choice listed u descends obeys => frames many u descends
    (parts.shrinks choice listed u.domains descends.formed.canonical descends.within obeys))
    proceeds
  intro p settled within decided improves
  obtain ⟨choice, listed, obeys⟩ :=
    parts.covers p settled.sound.canonical settled.filled within (decided var member)
  exact covers choice listed p settled within decided obeys improves

/-! ## Label frames -/

/-- Variables that are decided already may be added to those that the leaves decide. -/
theorem Visited.of_decided {enough : Prop} {st : SearchState ρ} {outcome : Flow × SearchState ρ}
    {own : List VarId} (visited : Visited t bound declarations vars enough st outcome)
    (formed : st.store.Formed) (decided : ∀ var ∈ own, st.store.domains.Decided var) :
    Visited t bound declarations (own ++ vars) enough st outcome := by
  obtain ⟨leaves, explored, running, complete⟩ := visited
  refine ⟨leaves, ?_, running, fun whole frames proceeds => ?_⟩
  · refine ⟨explored.store, explored.listener, explored.incumbent, fun u member => ?_, ?_,
      explored.improving⟩
    · have leaf := explored.leaf u member
      refine ⟨leaf.descends, leaf.stable, fun var here => ?_, fun p settled within agrees => ?_⟩
      · rcases List.mem_append.1 here with here | later
        · exact leaf.descends.decided formed (decided var here)
        · exact leaf.decided var later
      · exact leaf.greatest p settled within fun var later =>
          agrees var (List.mem_append_right own later)
    · refine explored.apart.imp fun differ => ?_
      obtain ⟨var, later, different⟩ := differ
      exact ⟨var, List.mem_append_right own later, different⟩
  · intro p settled within decided
    exact complete whole frames proceeds p settled within fun var later =>
      decided var (List.mem_append_right own later)

omit [Reporter ρ] in
/-- The domain of an undecided variable of a node suits the order of the node. -/
theorem exists_domain (searchable : t.Searchable bound declarations) {st : SearchState ρ}
    (running : Running t bound declarations st) {id : NodeId} {node : SearchNode}
    (here : t.node? id = some node) {var : VarId} (member : var ∈ node.vars)
    (undecided : st.store.isSingleton var = false) {order : ValueOrder}
    (suits : order.SuitsKind node.search.kind) :
    ∃ d, st.store.domains.get? var = some d ∧ d.isSingleton = false ∧ order.Suits d := by
  obtain ⟨v, declared, takes⟩ := searchable.takes id node here var member
  rw [← running.declared] at declared
  obtain ⟨d, there, fits⟩ := running.formed.exists_domain declared
  refine ⟨d, there, ?_, suits v.kind d takes fits⟩
  simpa [Store.isSingleton, there] using undecided

omit [Reporter ρ] in
theorem decided_of_isSingleton {s : Store} {var : VarId} (decided : s.isSingleton var = true) :
    s.domains.Decided var := by
  unfold Store.isSingleton at decided
  cases here : s.domains.get? var with
  | none =>
    rw [here] at decided
    cases decided
  | some d =>
    rw [here] at decided
    exact ⟨d, here, decided⟩

/-- A label frame comes to leaves as described, and covers what lies below its store if there
are as many frames as nodes and decisions ahead. -/
theorem visited_label (searchable : t.Searchable bound declarations) (frames id depth : Nat)
    (path : PathState) (st : SearchState ρ)
    (running : Running t bound declarations st)
    (stable : st.store.domains.Stable st.store.rules)
    (improves : st.store.domains.Improves bound st.context.incumbent?) (inside : id < t.size) :
    Visited t bound declarations (t.varsFrom id) (t.size - id + t.toil st.store ≤ frames) st
      (t.label frames id depth path st) := by
  induction frames generalizing id depth path st with
  | zero =>
    refine ⟨[], .of_quiet (.refl t st) _, running, fun _ frames => ?_⟩
    omega
  | succ frames ih =>
    have here : t.node? id = some t.nodes[id] := Array.getElem?_eq_getElem inside
    generalize t.nodes[id] = node at here
    have children := searchable.children id node here
    unfold SearchTree.label
    simp only [here]
    cases picked : node.search.variableOrder.select? st.store node.vars with
    | none =>
      have decided : ∀ var ∈ node.vars, st.store.domains.Decided var := fun var member =>
        decided_of_isSingleton (VariableOrder.select?_eq_none picked var member)
      rw [SearchTree.varsFrom_of_node? here]
      simp only [children]
      by_cases more : id + 1 < t.size
      · -- The only child goes on with the node's own variables decided.
        simp only [if_pos more]
        have start := quiet_setState t st (id + 1) .labeling
        have visited := ih (id + 1) 0 .start (st.setState (id + 1) .labeling)
          (running.of_quiet start) stable improves more
        refine Visited.of_decided (visited.within.of_enough fun enough => ?_) running.formed decided
        show t.size - (id + 1) + t.toil st.store ≤ frames
        omega
      · have last : id + 1 = t.size := by omega
        simp only [if_neg more]
        refine visited_acceptAt searchable running stable improves (fun var member => ?_) here
          last _
        rw [SearchTree.varsFrom_of_size_le (by omega), List.append_nil] at member
        exact decided var member
    | some var =>
      obtain ⟨member, undecided⟩ := VariableOrder.select?_eq_some picked
      have own : var ∈ t.varsFrom id := by
        rw [SearchTree.varsFrom_of_node? here]
        exact List.mem_append_left _ member
      have quiet₁ := quiet_count t st id fun c => { c with maxDepth := max c.maxDepth (depth + 1) }
      simp only
      generalize st.count id (fun c => { c with maxDepth := max c.maxDepth (depth + 1) }) = st₁
        at quiet₁
      have running₁ := running.of_quiet quiet₁
      obtain ⟨order, suits, branching⟩ := exists_order_of_branch running₁.orders here var
      have quiet₂ := quiet_branch t st₁ id var
      obtain ⟨d, found, open_, fits⟩ :=
        exists_domain searchable running here member undecided suits
      have parts := ValueOrder.parts_candidates fits running.formed.canonical found open_
      rw [quiet₁.store] at branching
      cases came : st₁.branch id var with
      | mk branching' st₂ =>
        rw [came] at branching quiet₂
        simp only at branching quiet₂
        subst branching
        have quiet := quiet₁.trans quiet₂
        have sifted : Sifted t bound declarations (t.varsFrom id)
            (fun u => t.size - id + t.toil u ≤ frames) _ st₂ _ :=
          sifted_tryCandidates searchable here
            (fun path st running stable improves =>
              ih id (depth + 1) path st running stable improves inside)
            own path (order.candidates st.store var).1.size 0 _ st₂ (running.of_quiet quiet)
            parts.about parts.opposed
        simp only
        generalize SearchTree.tryCandidates (t.label frames id (depth + 1)) id node path
          (order.candidates st.store var).1.size 0 _ st₂ = outcome at sifted ⊢
        obtain ⟨flow, st₃⟩ := outcome
        have visited : Visited t bound declarations (t.varsFrom id)
            (t.size - id + t.toil st.store ≤ frames + 1) st (flow, st₃) := by
          refine (sifted.after_quiet quiet).visited parts own fun enough u descends less => ?_
          have := SearchTree.toil_lt descends running.formed
            (SearchTree.mem_vars_of_node? here member) less
          omega
        exact visited.between (.refl t st) (quiet_ite_backtrack t st₃ id _ _)

end SearchState

end StagedSearch
