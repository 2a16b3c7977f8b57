/-
# The nesting of frames

A search ends by itself, whatever its store and its listener are, and its frames nest no
deeper than there are nodes and things to decide. So the room of a run, which is one frame more,
is never used up, and a search in at least that much room comes to what the run comes to.

Only the clock and the time limit can keep a run from coming to anything. If their sum is a time
that cannot be told, the run breaks off where it begins, and no room helps.

The induction is on the room. It is carried by the number of nodes from the current one on,
together with what there is left to decide (`SearchTree.toil`): going on to a child leaves fewer
nodes, and a candidate that is entered leaves less to decide, because it is one that the store
offers. That the store is put back after each candidate makes the measure the same for all of
them.
-/

import StagedSearch.Proofs.Search.Stores
import StagedSearch.Proofs.Tree.Grown
import StagedSearch.Search.Nesting

namespace StagedSearch

namespace SearchTree

variable {ρ : Type} [Reporter ρ] {t : SearchTree} {st : SearchState ρ}

/-- Trials that find room below every candidate that is entered come to what they come to. -/
theorem tryCandidates?_eq_some {id : NodeId} {node : SearchNode} {s : Store} (formed : s.Formed)
    {below? : PathState → SearchState ρ → Option (Flow × SearchState ρ)}
    {below : PathState → SearchState ρ → Flow × SearchState ρ}
    (orderly : ∀ path st, SearchState.Orderly st (below path st)) (path : PathState)
    (size index : Nat) (candidates : Candidates) (st : SearchState ρ) (same : st.store = s)
    (room : ∀ choice ∈ candidates.toList, ∀ (path : PathState) (st₁ st₂ : SearchState ρ),
      st₁.store = s → st₁.decide id node.bound choice = (true, st₂) →
      below? path st₂ = some (below path st₂)) :
    tryCandidates? below? id node path size index candidates st =
      some (tryCandidates below id node path size index candidates st) := by
  fun_induction tryCandidates below id node path size index candidates st with
  | case1 index candidates st none =>
    rw [tryCandidates?, none]
  | case2 index candidates st choice rest next st₁ expired =>
    rw [tryCandidates?, next]
    simp only [expired]
  | case3 index candidates st choice rest next st₁ inTime refused =>
    rw [tryCandidates?, next]
    simp only [inTime, refused]
  | case4 index candidates st choice rest next st₁ inTime path' admitted st₂ fails ih =>
    have looked : st₁.store = s := (SearchState.quiet_of_expired empty inTime).store.trans same
    have back : st₂.store = st₁.store :=
      (SearchState.quiet_decide (looked ▸ formed) fails empty).store
    rw [Candidates.toList_of_next?_eq_some next] at room
    rw [tryCandidates?, next]
    simp only [inTime, admitted, fails]
    exact ih (back.trans looked) (List.forall_mem_cons.1 room).2
  | case5 index candidates st choice rest next st₁ inTime path' admitted st₂ enters st₃ went ih =>
    have looked : st₁.store = s := (SearchState.quiet_of_expired empty inTime).store.trans same
    have entered := SearchState.entered_decide (looked ▸ formed) enters empty
    have orderly' := orderly path' st₂
    rw [went] at orderly'
    have back : st₃.popLevel.store = st₁.store := by
      show st₃.store.popLevel = st₁.store
      rw [orderly'.store entered.descends.formed, entered.back]
    rw [Candidates.toList_of_next?_eq_some next] at room
    obtain ⟨here, later⟩ := List.forall_mem_cons.1 room
    rw [tryCandidates?, next]
    simp only [inTime, admitted, enters, here path' st₁ st₂ looked enters, went]
    exact ih (back.trans looked) later
  | case6 index candidates st choice rest next st₁ inTime path' admitted st₂ enters flow st₃ ends
      went =>
    have looked : st₁.store = s := (SearchState.quiet_of_expired empty inTime).store.trans same
    rw [Candidates.toList_of_next?_eq_some next] at room
    have here := (List.forall_mem_cons.1 room).1 path' st₁ st₂ looked enters
    rw [went] at here
    rw [tryCandidates?, next]
    simp only [inTime, admitted, enters, here]

/-- The children of a node come after it. -/
theorem Grown.lt_of_head?_children (grown : t.Grown) {id child : Nat} {node : SearchNode}
    (here : t.node? id = some node) (next : node.children.head? = some child) :
    id < child ∧ child < t.size := by
  have member : child ∈ t.children id := by
    rw [children, here]
    exact List.mem_of_head? next
  exact grown.parent_lt (grown.mem_children_iff.1 member)

/-- A frame that has room for the nodes from its own on and for what is left to decide comes to
what it comes to. -/
theorem label?_eq_some (grown : t.Grown) {room frames id : Nat} (depth : Nat) (path : PathState)
    (st : SearchState ρ) (formed : st.store.Formed) (inside : id < t.size)
    (enough : t.size - id + t.toil st.store ≤ room)
    (enough' : t.size - id + t.toil st.store ≤ frames) :
    t.label? room id depth path st = some (t.label frames id depth path st) := by
  induction room generalizing frames id depth path st with
  | zero => omega
  | succ room ih =>
    obtain ⟨frames, rfl⟩ : ∃ n, frames = n + 1 := ⟨frames - 1, by omega⟩
    obtain ⟨node, here⟩ := exists_node?_of_lt inside
    unfold label? label
    simp only [here]
    cases picked : node.search.variableOrder.select? st.store node.vars with
    | none =>
      simp only
      cases next : node.children.head? with
      | none => rfl
      | some child =>
        obtain ⟨onward, inside'⟩ := grown.lt_of_head?_children here next
        simp only [SearchState.within?, SearchState.within]
        rw [ih 0 .start (st.setState child .labeling) formed inside' (by
            show t.size - child + t.toil st.store ≤ room
            omega) (by
            show t.size - child + t.toil st.store ≤ frames
            omega)]
        rfl
    | some var =>
      obtain ⟨member, undecided⟩ := VariableOrder.select?_eq_some picked
      simp only
      generalize listed :
        (st.count id fun c => { c with maxDepth := max c.maxDepth (depth + 1) }).branch id var =
          branched
      obtain ⟨branching, st₁⟩ := branched
      have same : st₁.store = st.store := (SearchState.quiet_of_listed t listed).store
      have offered := SearchState.offers_of_listed listed undecided
      simp only
      have orderly (path : PathState) (st : SearchState ρ) :=
        SearchState.orderly_label t frames id (depth + 1) path st
      rw [tryCandidates?_eq_some formed orderly path _ 0 branching.candidates st₁ same ?_]
      · rfl
      · intro choice inside' path' st₂ st₃ same' enters
        obtain ⟨rfl, offers⟩ := offered choice inside'
        have entered := SearchState.entered_decide (same' ▸ formed) enters t
        rw [← same'] at offers formed enough enough'
        have less := toil_lt entered.descends formed (mem_vars_of_node? here member)
          (offers.effort_lt formed.canonical entered.descends.formed.canonical
            entered.descends.within entered.obeys)
        exact ih _ path' st₃ entered.descends.formed inside (by omega) (by omega)

/-- A run that has room for the nodes, for what there is to decide, and for one frame more comes
to what it comes to, if it can begin. -/
theorem run?_eq_some (grown : t.Grown) (formed : st.store.Formed)
    (fits : t.root? = none ∨ st.context.DeadlineFits) {room : Nat}
    (enough : t.frameBound st.store ≤ room) : t.run? room st = some (t.run st) := by
  unfold run? run
  cases found : t.root? with
  | none => rfl
  | some root =>
    obtain rfl := eq_zero_of_root? found
    have nonempty : 0 < t.size := by
      by_contra none
      rw [root?_eq_none_iff.2 (by omega)] at found
      cases found
    have inTime : st.context.DeadlineFits :=
      fits.resolve_left fun none => nomatch found.symm.trans none
    simp only [if_pos inTime]
    cases consistent : st.store.pushLevel.consistency.1 with
    | false => simp
    | true =>
      obtain ⟨descends, -⟩ := SearchState.descends_started formed consistent t
      have needed := SearchState.frames_suffice t descends formed
      simp only [if_true, SearchState.within?, SearchState.within]
      have searched := label?_eq_some grown 0 .start
        ((SearchState.started t st).setState 0 .labeling) descends.formed nonempty
        (needed.trans enough) needed
      unfold SearchState.started at searched
      rw [searched]
      rfl

/-- A run that cannot begin comes to nothing in any room. -/
theorem run?_eq_none (nonempty : t.root? ≠ none) (late : ¬ st.context.DeadlineFits) (room : Nat) :
    t.run? room st = none := by
  unfold run?
  cases found : t.root? with
  | none => exact absurd found nonempty
  | some root => exact if_neg late

/-- In enough room a search comes to what the run comes to that is asked for. -/
theorem run?_eq_launch (grown : t.Grown) (formed : st.store.Formed) {room : Nat}
    (enough : t.frameBound st.store ≤ room) : t.run? room st = (t.launch st).toOption := by
  unfold launch
  by_cases fits : t.root? = none ∨ st.context.DeadlineFits
  · rw [if_pos fits, run?_eq_some grown formed fits enough]
    rfl
  · rw [if_neg fits]
    obtain ⟨nonempty, late⟩ := not_or.1 fits
    exact run?_eq_none nonempty late room

end SearchTree

/-! ## Candidates commit -/

def SearchTask.Offered (s : Store) : SearchTask → Prop
  | label _ _ _ => True
  | trials _ _ _ _ _ candidates => ∀ choice ∈ candidates.toList, s.domains.Offers choice

/-- The next candidate is offered, and so are the later ones. -/
theorem SearchTask.Offered.next {s : Store} {id : NodeId} {depth size index : Nat}
    {path : PathState} {candidates rest : Candidates} {choice : Choice}
    (offered : (trials id depth path size index candidates).Offered s)
    (next : candidates.next? = some (choice, rest)) :
    s.domains.Offers choice ∧ ∀ later, (trials id depth path size later rest).Offered s := by
  change ∀ choice ∈ candidates.toList, s.domains.Offers choice at offered
  rw [Candidates.toList_of_next?_eq_some next] at offered
  obtain ⟨here, others⟩ := List.forall_mem_cons.1 offered
  exact ⟨here, fun _ => others⟩

namespace SearchTree

variable {ρ : Type} [Reporter ρ] {t : SearchTree} {st : SearchState ρ}
  {steps : List (SearchStep ρ)}

theorem carried_offered (t : SearchTree) : t.Carried fun s task => task.Offered s where
  descended _ _ _ _ _ _ _ _ _ _ := trivial
  branched _ _ _ _ _ _ _ _ _ _ _ listed _ := fun choice inside => (listed choice inside).2
  passed _ _ _ _ _ _ _ _ _ next offered := (SearchTask.Offered.next offered next).2 _
  entered _ _ _ _ _ _ _ _ _ _ _ _ _ _ _ _ := trivial

/-- Whenever a candidate is decided, committing it at the new level succeeds and is a change. -/
theorem Follows.commits (formed : st.store.Formed) (follows : t.Follows st steps) {trial : Trial}
    {st' : SearchState ρ} (taken : .decide trial st' ∈ steps) :
    (trial.choice.commit st'.store.pushLevel).1 = .ok true := by
  obtain ⟨⟨candidates, rest, next, offered⟩, formed'⟩ :=
    follows.stands t.carried_offered formed (fun _ => trivial) _ taken
  have offers : st'.store.pushLevel.domains.Offers trial.choice := by
    have here := (offered.next next).1
    cases choice : trial.choice <;> rw [choice] at here <;> exact here
  exact Choice.commit_of_offers offers formed'.pushLevel.canonical

end SearchTree

namespace SearchSpec

variable {ρ : Type} [Reporter ρ] {spec : SearchSpec} {names : Names} {s : Store}
  {context : Context ρ} {t : SearchTree} {st : SearchState ρ}

/-- A run of a tree that was built breaks off exactly if the end of its time limit cannot be told,
and otherwise it ends by itself, from whatever store, context and accounts it begins: its frames
nest no deeper than there are nodes, integer variables of the tree and undecided elements of its
sets at the start, and one more. Every candidate that it decides commits at the new level with a
change, as does every candidate that an order yields for a variable that was picked, in the store
from which it is listed. -/
theorem ends_in_room_of_build (built : (spec.build names s context).outcome = .ok (.tree t))
    (reached : st.store.Reachable) :
    (t.launch st = if st.context.DeadlineFits then .ok (t.run st) else .error .overflow) ∧
    (∀ room, t.size + totalSize (SearchTree.potential st.store) t.vars + 1 ≤ room →
      t.run? room st = (t.launch st).toOption) ∧
    (∃ steps : List (SearchStep ρ), t.Follows st steps ∧
      ∀ trial st', .decide trial st' ∈ steps →
        (trial.choice.commit st'.store.pushLevel).1 = .ok true) ∧
    ∀ (u : Store) (variableOrder : VariableOrder) (valueOrder : ValueOrder) (vars : List VarId)
      (var : VarId), u.domains.Canonical → variableOrder.select? u vars = some var →
      ∀ choice ∈ (valueOrder.candidates u var).1.candidates.toList,
        (choice.commit u).1 = .ok true := by
  have formed := reached.formed
  obtain ⟨steps, follows⟩ := t.exists_follows st
  refine ⟨SearchState.launch_eq (size_pos_of_build built) st,
    fun room enough => SearchTree.run?_eq_launch (grown_of_build built) formed enough,
    ⟨steps, follows, fun trial st' taken => follows.commits formed taken⟩, ?_⟩
  intro u variableOrder valueOrder vars var canonical picked choice listed
  obtain ⟨-, undecided⟩ := VariableOrder.select?_eq_some picked
  exact Choice.commit_of_offers (ValueOrder.offers_of_candidates undecided listed) canonical

/-- One integer and a set of two elements, at a node each, with a time limit of a second: the room
for six frames is enough, and that for four is not. -/
theorem ends_in_room_of_build_pair :
    ∃ (spec : SearchSpec) (s : Store) (t : SearchTree) (st : SearchState NoReporter),
      (spec.build Names.empty s
        (Context.ofListener (Listener.all none) : Context NoReporter)).outcome = .ok (.tree t) ∧
      st.store.Reachable ∧ st.context.timeLimit = some 1000000000 ∧
      t.launch st = .ok (t.run st) ∧
      t.size + totalSize (SearchTree.potential st.store) t.vars + 1 = 6 ∧
      t.run? 6 st = some (t.run st) ∧ (t.run st).2.context.listener.count = 8 ∧
      (t.run? 4 st).isNone = true := by
  let s := StoreOperation.applyAll Store.empty [.declareInt "x" 0 1, .declareSet "s" [] [3, 5]]
  let spec : SearchSpec := ⟨.satisfy, none,
    some (.seq [.leaf .int ⟨[⟨0⟩], some .inputOrder, some .min, .complete⟩,
      .leaf .set ⟨[⟨1⟩], some .inputOrder, some .max, .complete⟩])⟩
  let context : Context NoReporter := Context.ofListener (Listener.all none)
  let t := SearchTree.ofStages none
    [⟨⟨.int, [⟨0⟩], .inputOrder, .min, .complete, .ascending⟩, .explicit⟩,
      ⟨⟨.set, [⟨1⟩], .inputOrder, .max, .complete, .largestElement⟩, .explicit⟩]
  have reached : s.Reachable := Store.Reachable.empty.applyAll (by decide)
  have built : (spec.build Names.empty s context).outcome = .ok (.tree t) := rfl
  let st : SearchState NoReporter :=
    ⟨Progress.ofTree t, s, { context with timeLimit := some 1000000000 }⟩
  have begins : st.store.Reachable := reached
  have fits : st.context.DeadlineFits := by decide
  have bound : t.size + totalSize (SearchTree.potential st.store) t.vars + 1 = 6 := by
    decide +kernel
  obtain ⟨launched, room, -, -⟩ := ends_in_room_of_build built begins
  rw [if_pos fits] at launched
  have six := room 6 bound.le
  rw [launched] at six
  exact ⟨spec, s, t, st, built, reached, rfl, launched, bound, six, by decide +kernel,
    by decide +kernel⟩

/-- A time limit of as many seconds as 64 bits count, asked for one second after the clock was
made. Nothing else is in the way, and yet the run breaks off. -/
theorem exists_overflow_of_timeLimit :
    ∃ (spec : SearchSpec) (s : Store) (t : SearchTree) (st : SearchState NoReporter),
      (spec.build Names.empty s
        (Context.ofListener (Listener.all none) : Context NoReporter)).outcome = .ok (.tree t) ∧
      st.store.Reachable ∧ st.context.clock.read.1 = 1000000000 ∧
      st.context.timeLimit = some (Unsigned64.greatest * 1000000000) ∧
      Unsigned64.greatest * 1000000000 ≤ Clock.longest ∧
      t.launch st = .error .overflow ∧ ∀ room, t.run? room st = none := by
  let s := StoreOperation.applyAll Store.empty [.declareInt "x" 0 1]
  let spec : SearchSpec := ⟨.satisfy, none,
    some (.leaf .int ⟨[⟨0⟩], some .inputOrder, some .min, .complete⟩)⟩
  let context : Context NoReporter := Context.ofListener (Listener.all none)
  let t := SearchTree.ofStages none
    [⟨⟨.int, [⟨0⟩], .inputOrder, .min, .complete, .ascending⟩, .explicit⟩]
  have reached : s.Reachable := Store.Reachable.empty.applyAll (by decide)
  have built : (spec.build Names.empty s context).outcome = .ok (.tree t) := rfl
  let st : SearchState NoReporter := ⟨Progress.ofTree t, s, { context with
    clock := Clock.still.advance 1000000000
    timeLimit := some (Unsigned64.greatest * 1000000000) }⟩
  have late : ¬ st.context.DeadlineFits := by decide
  refine ⟨spec, s, t, st, built, reached, by decide, rfl, by decide, ?_,
    fun room => SearchTree.run?_eq_none (by decide) late room⟩
  rw [SearchState.launch_eq (size_pos_of_build built) st, if_neg late]

end SearchSpec

end StagedSearch
