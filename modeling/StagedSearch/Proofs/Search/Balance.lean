/-
# The balance of a search

Every frame of a search that picks a variable comes to an end in one of two ways: something below
it is accepted, or its candidates are used up in vain and it backtracks. Every decision fails or
enters one frame. So what a run counts balances: solutions, backtracks and failed decisions are
together at most one more than the decisions, for the frame of the root. If nothing is accepted
and the time is not up, then no frame ends in another way and the balance is exact.

The counts are bumped at different nodes and by different parts of the search. The induction is on
courses, and what it carries is the balance of the totals of all nodes. That no frame is cut off
because frames nest too deep, which would end it without any count, is part of the induction.
-/

import StagedSearch.Proofs.Search.Counted
import StagedSearch.Proofs.Search.Nesting

namespace StagedSearch

/-! ## Totals -/

/-- Changing one entry changes the total by the difference. -/
theorem totalSize_modify {α : Type} (size : α → Nat) (f : α → α) {list : List α} {i : Nat} {a : α}
    (here : list[i]? = some a) :
    totalSize size (list.modify i f) + size a = totalSize size list + size (f a) := by
  induction list generalizing i with
  | nil => cases here
  | cons b rest ih =>
    cases i with
    | zero =>
      obtain rfl := Option.some.inj here
      simp only [List.modify_zero_cons, totalSize_cons]
      omega
    | succ i =>
      have later := ih here
      simp only [List.modify_succ_cons, totalSize_cons]
      omega

namespace Progress

variable {p : Progress} {id : Nat} {size : Counters → Nat}

/-- What is counted at all nodes together. -/
def total (p : Progress) (size : Counters → Nat) : Nat :=
  totalSize (fun n => size n.counters) p.toList

theorem size_modifyNode (p : Progress) (id : Nat) (f : NodeProgress → NodeProgress) :
    (p.modifyNode id f).size = p.size := Array.size_modify

/-- What is not counted does not change a total. -/
theorem total_modifyNode (p : Progress) (id : Nat) {f : NodeProgress → NodeProgress}
    (keeps : ∀ n, size (f n).counters = size n.counters) :
    (p.modifyNode id f).total size = p.total size := by
  unfold total modifyNode
  rw [Array.toList_modify]
  cases here : p.toList[id]? with
  | none =>
    rw [List.modify_eq_self (List.getElem?_eq_none_iff.1 here)]
  | some n =>
    have change := totalSize_modify (fun n => size n.counters) f here
    simp only [keeps n] at change
    exact Nat.add_right_cancel change

/-- What is counted at a node is counted in the total. -/
theorem total_count (inside : id < p.size) {f : Counters → Counters} {more : Nat}
    (adds : ∀ c, size (f c) = size c + more) :
    (p.count id f).total size = p.total size + more := by
  unfold total count modifyNode
  rw [Array.toList_modify]
  have here : p.toList[id]? = some p[id] := by
    rw [Array.getElem?_toList, Array.getElem?_eq_getElem inside]
  have change := totalSize_modify (fun n => size n.counters)
    (fun n => { n with counters := f n.counters }) here
  simp only [adds] at change
  omega

/-- What is counted at a node stays as it is while only its state and its deadline change. -/
theorem counters_modifyNode (p : Progress) (id other : Nat) {f : NodeProgress → NodeProgress}
    (keeps : ∀ n, (f n).counters = n.counters) :
    (p.modifyNode id f).counters other = p.counters other := by
  unfold counters
  rw [SearchState.getElem?_modifyNode]
  by_cases own : id = other
  · rw [if_pos own]
    cases p[other]? with
    | none => rfl
    | some n => exact keeps n
  · rw [if_neg own]

theorem counters_start (p : Progress) (deadline : Option Nat) (ids : List NodeId) (id : Nat) :
    (p.start deadline ids).counters id = p.counters id := by
  unfold start
  induction ids generalizing p with
  | nil => rfl
  | cons first rest ih => exact (ih _).trans (p.counters_modifyNode first id fun _ => rfl)

theorem counters_ofTree (t : SearchTree) (id : Nat) : (ofTree t).counters id = Counters.zero := by
  unfold counters ofTree
  rw [Array.getElem?_map]
  cases t.nodes[id]? <;> rfl

theorem total_start (p : Progress) (deadline : Option Nat) (ids : List NodeId) :
    (p.start deadline ids).total size = p.total size := by
  unfold start
  induction ids generalizing p with
  | nil => rfl
  | cons first rest ih => exact (ih _).trans (p.total_modifyNode first fun _ => rfl)

theorem total_ofTree (t : SearchTree) (none : size Counters.zero = 0) :
    (ofTree t).total size = 0 := by
  unfold total ofTree
  rw [Array.toList_map]
  induction t.nodes.toList with
  | nil => rfl
  | cons node rest ih => simp [none, ih]

end Progress

/-! ## Balances -/

namespace SearchState

variable {ρ : Type}

/-- How many frames have come to an end, and how many decisions have failed: each solution, each
backtrack and each wrong decision is one end. -/
def ends (st : SearchState ρ) : Nat :=
  st.accepted + st.progress.total Counters.backtracks + st.progress.total Counters.wrongDecisions

/-- Nothing is counted between two states. -/
structure Uncounted (st st' : SearchState ρ) : Prop where
  size : st'.progress.size = st.progress.size
  nodes : st'.progress.total Counters.nodes = st.progress.total Counters.nodes
  decisions : st'.progress.total Counters.decisions = st.progress.total Counters.decisions
  wrong : st'.progress.total Counters.wrongDecisions = st.progress.total Counters.wrongDecisions
  backtracks : st'.progress.total Counters.backtracks = st.progress.total Counters.backtracks
  accepted : st'.accepted = st.accepted

/-- What is counted in a part of the search that enters some frames itself, besides those that its
decisions enter. -/
structure Balances (frames : Nat) (st : SearchState ρ) (outcome : Flow × SearchState ρ) :
    Prop where
  size : outcome.2.progress.size = st.progress.size
  nodes : outcome.2.progress.total Counters.nodes + st.progress.total Counters.decisions =
    st.progress.total Counters.nodes + outcome.2.progress.total Counters.decisions
  wrong : outcome.2.progress.total Counters.wrongDecisions + st.progress.total Counters.decisions ≤
    st.progress.total Counters.wrongDecisions + outcome.2.progress.total Counters.decisions
  accepted : st.accepted ≤ outcome.2.accepted
  ends : outcome.2.ends + st.progress.total Counters.decisions ≤
    st.ends + outcome.2.progress.total Counters.decisions + frames
  /-- If nothing is accepted and the time is not up, then every frame has come to an end. -/
  all : outcome.2.accepted = st.accepted → outcome.1 ≠ .timedOut →
    outcome.1 = .proceed ∧ outcome.2.ends + st.progress.total Counters.decisions =
      st.ends + outcome.2.progress.total Counters.decisions + frames

variable {st st₁ st₂ st' : SearchState ρ} {flow : Flow} {outcome : Flow × SearchState ρ}
  {frames more : Nat}

theorem Uncounted.refl (st : SearchState ρ) : Uncounted st st := ⟨rfl, rfl, rfl, rfl, rfl, rfl⟩

theorem Uncounted.trans (first : Uncounted st st₁) (second : Uncounted st₁ st₂) :
    Uncounted st st₂ where
  size := second.size.trans first.size
  nodes := second.nodes.trans first.nodes
  decisions := second.decisions.trans first.decisions
  wrong := second.wrong.trans first.wrong
  backtracks := second.backtracks.trans first.backtracks
  accepted := second.accepted.trans first.accepted

theorem Uncounted.ends (same : Uncounted st st') : st'.ends = st.ends := by
  unfold SearchState.ends
  rw [same.accepted, same.backtracks, same.wrong]

/-- The depth and the number of solutions that a node notes are not added up. -/
theorem uncounted_modifyNode (st : SearchState ρ) (id : Nat) (f : NodeProgress → NodeProgress)
    (keeps : ∀ n, ∃ maxDepth solutions,
      (f n).counters = { n.counters with maxDepth, solutions }) :
    Uncounted st { st with progress := st.progress.modifyNode id f } := by
  have same {size : Counters → Nat}
      (unread : ∀ c maxDepth solutions, size { c with maxDepth, solutions } = size c) :
      (st.progress.modifyNode id f).total size = st.progress.total size := by
    apply Progress.total_modifyNode
    intro n
    obtain ⟨maxDepth, solutions, kept⟩ := keeps n
    rw [kept, unread]
  exact ⟨Progress.size_modifyNode _ _ _, same fun _ _ _ => rfl, same fun _ _ _ => rfl,
    same fun _ _ _ => rfl, same fun _ _ _ => rfl, rfl⟩

theorem uncounted_setState (st : SearchState ρ) (id : Nat) (state : NodeState) :
    Uncounted st (st.setState id state) :=
  uncounted_modifyNode st id _ fun _ => ⟨_, _, rfl⟩

theorem uncounted_count (st : SearchState ρ) (id : Nat) (f : Counters → Counters)
    (keeps : ∀ c, ∃ maxDepth solutions, f c = { c with maxDepth, solutions }) :
    Uncounted st (st.count id f) :=
  uncounted_modifyNode st id _ fun n => keeps n.counters

/-- Listing candidates, after the depth of a frame has been noted, counts nothing. -/
theorem uncounted_of_listed {id : NodeId} {var : VarId} {depth : Nat} {branching : Branching}
    (listed : (st.count id fun c => { c with maxDepth := max c.maxDepth depth }).branch id var =
      (branching, st')) : Uncounted st st' := by
  apply (uncounted_count st id (fun c => { c with maxDepth := max c.maxDepth depth })
    fun _ => ⟨_, _, rfl⟩).trans
  unfold branch at listed
  split at listed
  · cases listed
    exact .refl _
  · cases listed
    exact uncounted_modifyNode _ id _ fun _ => ⟨_, _, rfl⟩

theorem uncounted_of_expired {id : NodeId} {late : Bool} (expired : st.expired id = (late, st')) :
    Uncounted st st' := by
  unfold SearchState.expired at expired
  split at expired <;> cases expired <;> exact ⟨rfl, rfl, rfl, rfl, rfl, rfl⟩

theorem uncounted_popLevel (st : SearchState ρ) : Uncounted st st.popLevel :=
  ⟨rfl, rfl, rfl, rfl, rfl, rfl⟩

theorem uncounted_timeOut (st : SearchState ρ) : Uncounted st st.timeOut :=
  ⟨rfl, rfl, rfl, rfl, rfl, rfl⟩

/-- Where nothing is counted, everything balances. -/
theorem Uncounted.balances (same : Uncounted st st') : Balances 0 st (.proceed, st') := by
  have ends := same.ends
  obtain ⟨size, nodes, decisions, wrong, backtracks, accepted⟩ := same
  constructor <;> simp only [size, nodes, decisions, wrong, accepted, ends] <;> simp [Nat.add_comm]

/-- When the time is up it does not matter whether every frame has come to an end. -/
theorem Balances.late (balances : Balances frames st (flow, st')) :
    Balances frames st (.timedOut, st') :=
  ⟨balances.size, balances.nodes, balances.wrong, balances.accepted, balances.ends,
    fun _ inTime => absurd rfl inTime⟩

/-- What is counted after the other adds up. -/
theorem Balances.append (first : Balances frames st (.proceed, st₁))
    (second : Balances more st₁ outcome) : Balances (frames + more) st outcome where
  size := second.size.trans first.size
  nodes := by
    have := first.nodes
    have := second.nodes
    dsimp only at *
    omega
  wrong := by
    have := first.wrong
    have := second.wrong
    dsimp only at *
    omega
  accepted := first.accepted.trans second.accepted
  ends := by
    have := first.ends
    have := second.ends
    dsimp only at *
    omega
  all none inTime := by
    have before := first.accepted
    have after := second.accepted
    dsimp only at before
    obtain ⟨-, early⟩ := first.all (by dsimp only; omega) nofun
    obtain ⟨proceeds, later⟩ := second.all (by omega) inTime
    dsimp only at early
    exact ⟨proceeds, by omega⟩

/-- What counts nothing at the end changes nothing. -/
theorem Balances.finish (balances : Balances frames st (flow, st₁)) (same : Uncounted st₁ st₂) :
    Balances frames st (flow, st₂) := by
  have ends := same.ends
  obtain ⟨size, nodes, decisions, wrong, -, accepted⟩ := same
  constructor <;> simp only [size, nodes, decisions, wrong, accepted, ends]
  · exact balances.size
  · exact balances.nodes
  · exact balances.wrong
  · exact balances.accepted
  · exact balances.ends
  · exact balances.all

/-! ## What the steps count -/

section Deciding

variable {id : Nat} {bound : Option VarId} {choice : Choice}

/-- A decision is counted as a decision and as a node, and as a wrong one if it fails. -/
theorem counted_of_decide (inside : id < st.progress.size) {consistent : Bool}
    (tried : st.decide id bound choice = (consistent, st')) :
    st'.progress.size = st.progress.size ∧
      st'.progress.total Counters.nodes = st.progress.total Counters.nodes + 1 ∧
      st'.progress.total Counters.decisions = st.progress.total Counters.decisions + 1 ∧
      st'.progress.total Counters.wrongDecisions =
        st.progress.total Counters.wrongDecisions + (if consistent then 0 else 1) ∧
      st'.progress.total Counters.backtracks = st.progress.total Counters.backtracks ∧
      st'.accepted = st.accepted := by
  rw [decide_eq] at tried
  obtain ⟨answer, rfl⟩ := Prod.mk.inj tried
  have progress : (if (st.store.pushLevel.attempt choice bound st.context.incumbent?).1 = true then
      st.tried id bound choice else (st.tried id bound choice).popLevel).progress =
        (st.tried id bound choice).progress := by
    split <;> rfl
  have accepted : (if (st.store.pushLevel.attempt choice bound st.context.incumbent?).1 = true then
      st.tried id bound choice else (st.tried id bound choice).popLevel).accepted =
        st.accepted := by
    split <;> rfl
  rw [progress]
  refine ⟨Progress.size_modifyNode _ _ _, Progress.total_count inside fun c => rfl,
    Progress.total_count inside fun c => rfl, Progress.total_count inside fun c => ?_,
    Progress.total_modifyNode _ _ fun _ => rfl, accepted⟩
  dsimp only
  rw [answer]
  cases consistent <;> rfl

/-- A decision that fails has come to its end. -/
theorem balances_of_fails (inside : id < st.progress.size)
    (fails : st.decide id bound choice = (false, st')) : Balances 0 st (.proceed, st') := by
  obtain ⟨size, nodes, decisions, wrong, backtracks, accepted⟩ := counted_of_decide inside fails
  rw [if_neg Bool.false_ne_true] at wrong
  have ends : st'.ends = st.ends + 1 := by
    unfold SearchState.ends
    omega
  refine ⟨size, ?_, ?_, accepted.ge, ?_, fun _ _ => ⟨rfl, ?_⟩⟩ <;> dsimp only <;> omega

/-- A decision that does not fail comes to the end of the frame that it enters. -/
theorem balances_of_enters (inside : id < st.progress.size)
    (enters : st.decide id bound choice = (true, st')) (below : Balances 1 st' outcome) :
    Balances 0 st outcome := by
  obtain ⟨size, nodes, decisions, wrong, backtracks, accepted⟩ := counted_of_decide inside enters
  rw [if_pos rfl] at wrong
  have ends : st'.ends = st.ends := by
    unfold SearchState.ends
    omega
  obtain ⟨size', nodes', wrong', accepted', ends', all⟩ := below
  refine ⟨size'.trans size, by omega, by omega, by omega, by omega, fun none inTime => ?_⟩
  obtain ⟨proceeds, exact_⟩ := all (by omega) inTime
  exact ⟨proceeds, by omega⟩

end Deciding

/-- A store that is accepted is the end of its frame. -/
theorem balances_acceptAt [Reporter ρ] (st : SearchState ρ) (id : Nat) (node : SearchNode) :
    Balances 1 st (st.acceptAt id node) := by
  have handed : Uncounted st { st with progress := (st.handed id).progress } :=
    (uncounted_setState st id .solutionAtLeaf).trans
      (uncounted_count (st.setState id .solutionAtLeaf) id
        (fun c => { c with solutions := (st.context.accept st.store).2.listener.count })
        fun _ => ⟨_, _, rfl⟩)
  obtain ⟨-, progress, listener⟩ := setIncumbent_keeps (st.handed id) node
  have accepted : (st.acceptAt id node).2.accepted = st.accepted + 1 :=
    (congrArg Listener.count listener).trans (st.context.listener.accept_fields st.store).1
  have progress' : (st.acceptAt id node).2.progress = (st.handed id).progress := progress
  obtain ⟨size, nodes, decisions, wrong, backtracks, -⟩ := handed
  dsimp only at size nodes decisions wrong backtracks
  rw [← progress'] at size nodes decisions wrong backtracks
  have ends : (st.acceptAt id node).2.ends = st.ends + 1 := by
    unfold SearchState.ends
    omega
  exact ⟨size, by omega, by omega, by omega, by omega, fun none => by omega⟩

/-- A frame that backtracks has come to its end. -/
theorem balances_count_backtracks {id : Nat} (inside : id < st.progress.size)
    (backtracked : st.count id (fun c => { c with backtracks := c.backtracks + 1 }) = st') :
    Balances 1 st (.proceed, st') := by
  have progress : st'.progress = st.progress.count id fun c =>
      { c with backtracks := c.backtracks + 1 } := congrArg SearchState.progress backtracked.symm
  have accepted : st'.accepted = st.accepted := (congrArg SearchState.accepted backtracked).symm
  have size : st'.progress.size = st.progress.size := by
    rw [progress]
    exact Progress.size_modifyNode _ _ _
  have same {size : Counters → Nat}
      (keeps : ∀ c : Counters, size { c with backtracks := c.backtracks + 1 } = size c) :
      st'.progress.total size = st.progress.total size := by
    rw [progress]
    exact Progress.total_modifyNode _ _ fun n => keeps n.counters
  have nodes : st'.progress.total Counters.nodes = _ := same fun _ => rfl
  have decisions : st'.progress.total Counters.decisions = _ := same fun _ => rfl
  have wrong : st'.progress.total Counters.wrongDecisions = _ := same fun _ => rfl
  have backtracks : st'.progress.total Counters.backtracks =
      st.progress.total Counters.backtracks + 1 := by
    rw [progress]
    exact Progress.total_count inside fun _ => rfl
  have ends : st'.ends = st.ends + 1 := by
    unfold SearchState.ends
    omega
  refine ⟨size, ?_, ?_, accepted.ge, ?_, fun _ _ => ⟨rfl, ?_⟩⟩ <;> dsimp only <;> omega

/-- A frame whose candidates are used up has come to its end, unless something was accepted. -/
theorem Balances.backtrack {id : Nat} (inside : id < st.progress.size)
    (trials : Balances 0 st (flow, st')) :
    Balances 1 st
      (flow, if flow = .proceed then st'.backtrack id st.accepted else st') := by
  by_cases proceeds : flow = .proceed
  · rw [if_pos proceeds]
    unfold SearchState.backtrack
    by_cases none : st'.accepted = st.accepted
    · rw [if_pos none]
      have inside' : id < st'.progress.size := Nat.lt_of_lt_of_eq inside trials.size.symm
      subst proceeds
      have counted := trials.append (balances_count_backtracks inside' rfl)
      exact counted.finish (uncounted_setState _ id _)
    · rw [if_neg none]
      obtain ⟨size, nodes, wrong, accepted, ends, -⟩ := trials
      exact ⟨size, nodes, wrong, accepted, Nat.le_succ_of_le ends, fun same => absurd same none⟩
  · rw [if_neg proceeds]
    obtain ⟨size, nodes, wrong, accepted, ends, all⟩ := trials
    exact ⟨size, nodes, wrong, accepted, Nat.le_succ_of_le ends,
      fun none inTime => absurd (all none inTime).1 proceeds⟩

end SearchState

/-! ## Courses -/

/-- How many frames a task enters itself, besides those that its decisions enter. -/
def SearchTask.frames : SearchTask → Nat
  | label _ _ _ => 1
  | trials _ _ _ _ _ _ => 0

/-- The frames that may nest are enough for the nodes that follow and for what is left to decide,
and the candidates are about variables of the tree. -/
def SearchTask.HasRoom (t : SearchTree) (frames : Nat) (s : Store) : SearchTask → Prop
  | label id _ _ => id < t.size ∧ t.size - id + t.toil s ≤ frames
  | trials id _ _ _ _ candidates => id < t.size ∧ t.size - id + t.toil s ≤ frames + 1 ∧
    ∀ choice ∈ candidates.toList, choice.var ∈ t.vars ∧ s.domains.Offers choice

namespace SearchTree

variable {ρ : Type} {t : SearchTree} {frames : Nat} {task : SearchTask}
  {st st₁ st₂ : SearchState ρ} {steps : List (SearchStep ρ)} {outcome : Flow × SearchState ρ}

section Room

variable {id child : Nat} {node : SearchNode} {depth size index : Nat} {path path' : PathState}
  {candidates rest : Candidates} {choice : Choice} {s : Store}

/-- Where no frame may nest there is no room. -/
theorem not_hasRoom_zero : ¬ (SearchTask.label id depth path).HasRoom t 0 s := by
  rintro ⟨inside, enough⟩
  exact absurd enough (Nat.not_le_of_lt (Nat.add_pos_left (Nat.sub_pos_of_lt inside) _))

/-- At the child there is one node less to come. -/
theorem hasRoom_child (grown : t.Grown) (here : t.node? id = some node)
    (next : node.children.head? = some child)
    (room : (SearchTask.label id depth path).HasRoom t (frames + 1) s) :
    (SearchTask.label child 0 .start).HasRoom t frames s := by
  obtain ⟨inside, enough⟩ := room
  obtain ⟨onward, inside'⟩ := grown.lt_of_head?_children here next
  exact ⟨inside', by omega⟩

/-- Listing the candidates of a variable that was picked, a frame leaves them room. -/
theorem hasRoom_listed (here : t.node? id = some node) {var : VarId}
    (picked : node.search.variableOrder.select? st.store node.vars = some var)
    {f : Counters → Counters} {branching : Branching}
    (listed : (st.count id f).branch id var = (branching, st₁))
    (room : (SearchTask.label id depth path).HasRoom t (frames + 1) st.store) :
    (SearchTask.trials id depth path branching.size 0 branching.candidates).HasRoom t frames
      st.store := by
  obtain ⟨member, undecided⟩ := VariableOrder.select?_eq_some picked
  refine ⟨room.1, room.2, fun choice inside => ?_⟩
  obtain ⟨rfl, offers⟩ := SearchState.offers_of_listed listed undecided choice inside
  exact ⟨mem_vars_of_node? here member, offers⟩

/-- Past a candidate there is room for the later ones. -/
theorem hasRoom_later (next : candidates.next? = some (choice, rest))
    (room : (SearchTask.trials id depth path size index candidates).HasRoom t frames s) :
    (SearchTask.trials id depth path size (index + 1) rest).HasRoom t frames s := by
  obtain ⟨inside, enough, offered⟩ := room
  rw [Candidates.toList_of_next?_eq_some next] at offered
  exact ⟨inside, enough, fun other member => offered other (List.mem_cons_of_mem _ member)⟩

/-- Below a candidate there is less to decide, and room for a frame. -/
theorem hasRoom_below {bound : Option VarId} (formed : st.store.Formed)
    (next : candidates.next? = some (choice, rest))
    (enters : st.decide id bound choice = (true, st₁))
    (room : (SearchTask.trials id depth path size index candidates).HasRoom t frames st.store) :
    (SearchTask.label id (depth + 1) path').HasRoom t frames st₁.store := by
  obtain ⟨inside, enough, offered⟩ := room
  rw [Candidates.toList_of_next?_eq_some next] at offered
  obtain ⟨among, offers⟩ := offered choice List.mem_cons_self
  have entered := SearchState.entered_decide formed enters t
  have less := toil_lt entered.descends formed among
    (offers.effort_lt formed.canonical entered.descends.formed.canonical
      entered.descends.within entered.obeys)
  exact ⟨inside, by omega⟩

/-- Looking at the clock before a candidate leaves the room for it, and its node is there. -/
theorem hasRoom_looked {late : Bool} (expired : st.expired id = (late, st₁))
    (nodes : st.progress.size = t.size) (formed : st.store.Formed)
    (room : (SearchTask.trials id depth path size index candidates).HasRoom t frames st.store) :
    SearchState.Uncounted st st₁ ∧ st₁.progress.size = t.size ∧ id < st₁.progress.size ∧
      st₁.store.Formed ∧
      (SearchTask.trials id depth path size index candidates).HasRoom t frames st₁.store := by
  have looked := SearchState.uncounted_of_expired expired
  have same : st₁.store = st.store := (SearchState.quiet_of_expired t expired).store
  have nodes' : st₁.progress.size = t.size := looked.size.trans nodes
  rw [same]
  exact ⟨looked, nodes', room.1.trans_eq nodes'.symm, formed, room⟩

end Room

/-- What a task counts balances, if there is room for it. -/
theorem Course.balances [Reporter ρ] (grown : t.Grown)
    (course : t.Course frames task st steps outcome) (nodes : st.progress.size = t.size)
    (formed : st.store.Formed) (room : task.HasRoom t frames st.store) :
    SearchState.Balances task.frames st outcome := by
  induction course with
  | spent => exact absurd room not_hasRoom_zero
  | missing none => exact absurd (Array.getElem?_eq_none_iff.1 none) (Nat.not_le_of_lt room.1)
  | solved => exact SearchState.balances_acceptAt _ _ _
  | @descended _ id child _ _ st _ _ _ _ here _ next _ ih =>
    have noted := SearchState.uncounted_setState st child .labeling
    have below := ih (noted.size.trans nodes) formed (hasRoom_child grown here next room)
    exact (noted.balances.append below).finish (SearchState.uncounted_setState _ child _)
  | @branched _ id _ _ st st₁ _ _ _ _ _ _ here picked listed _ ih =>
    have noted := SearchState.uncounted_of_listed listed
    have same : st₁.store = st.store := (SearchState.quiet_of_listed t listed).store
    have trials := ih (noted.size.trans nodes) (same ▸ formed)
      (same ▸ hasRoom_listed here picked listed room)
    refine (noted.balances.append trials).backtrack ?_
    exact Nat.lt_of_lt_of_eq room.1 nodes.symm
  | emptied => exact (SearchState.Uncounted.refl _).balances
  | @late _ _ _ _ _ _ _ _ _ st st₁ _ _ _ expired =>
    have looked := SearchState.uncounted_of_expired expired
    exact (looked.trans (SearchState.uncounted_timeOut st₁)).balances.late
  | pruned _ _ inTime => exact (SearchState.uncounted_of_expired inTime).balances
  | @failed _ id _ _ _ _ _ _ _ _ st st₁ st₂ _ _ _ _ next inTime _ fails _ ih =>
    obtain ⟨looked, nodes, inside, formed, room⟩ := hasRoom_looked inTime nodes formed room
    have here := SearchState.balances_of_fails inside fails
    have back : st₂.store = st₁.store := (SearchState.quiet_decide formed fails t).store
    have later := ih (here.size.trans nodes) (back ▸ formed)
      (back ▸ hasRoom_later next room)
    exact looked.balances.append (here.append later)
  | @returned _ id _ _ _ _ _ _ _ _ st st₁ st₂ st₃ _ _ _ _ _ next inTime _ enters below _ ihBelow
      ihLater =>
    obtain ⟨looked, nodes, inside, formed, room⟩ := hasRoom_looked inTime nodes formed room
    have entered := SearchState.entered_decide formed enters t
    have counted := (SearchState.counted_of_decide inside enters).1
    have inner := ihBelow (counted.trans nodes) entered.descends.formed
      (hasRoom_below formed next enters room)
    have here := (SearchState.balances_of_enters inside enters inner).finish
      (SearchState.uncounted_popLevel st₃)
    have back : st₃.popLevel.store = st₁.store :=
      (below.store_popLevel entered.descends.formed).trans entered.back
    have later := ihLater (here.size.trans nodes) (back ▸ formed)
      (back ▸ hasRoom_later next room)
    exact looked.balances.append (here.append later)
  | @ended _ id _ _ _ _ _ _ _ _ st st₁ st₂ st₃ _ _ _ _ next inTime _ enters _ _ ih =>
    obtain ⟨looked, nodes, inside, formed, room⟩ := hasRoom_looked inTime nodes formed room
    have entered := SearchState.entered_decide formed enters t
    have counted := (SearchState.counted_of_decide inside enters).1
    have inner := ih (counted.trans nodes) entered.descends.formed
      (hasRoom_below formed next enters room)
    exact looked.balances.append ((SearchState.balances_of_enters inside enters inner).finish
      (SearchState.uncounted_popLevel st₃))

end SearchTree

/-! ## Statistics -/

namespace SearchStatistics

variable {t : SearchTree} {p : Progress} {size : Counters → Nat}

/-- What adds up has its total over all nodes in the statistics of a chain. -/
theorem aggregate_eq_total (chain : t.IsChain) (nodes : p.size = t.size)
    (adds : ∀ total node, size (add total node) = size total + size node)
    (none : size Counters.zero = 0) : size (aggregate t p) = p.total size := by
  have listed : (List.range t.size).map p.counters = p.toList.map NodeProgress.counters := by
    apply List.ext_getElem
    · rw [List.length_map, List.length_map, List.length_range, ← nodes]
      exact Array.length_toList.symm
    · intro id inside inside'
      have here : id < p.size := by
        rwa [List.length_map, List.length_range, ← nodes] at inside
      rw [List.getElem_map, List.getElem_map, List.getElem_range, Array.getElem_toList]
      unfold Progress.counters
      rw [Array.getElem?_eq_getElem here]
  have once : t.preOrder.Perm (List.range t.size) := by rw [chain.preOrder]
  rw [aggregate_eq_totalSize once adds none, ← totalSize_map size p.counters, listed, totalSize_map]
  rfl

/-- Where nothing is counted at any node, the statistics are zero. -/
theorem aggregate_eq_zero (none : ∀ id : Nat, p.counters id = Counters.zero) :
    aggregate t p = Counters.zero := by
  unfold aggregate
  induction t.preOrder with
  | nil => rfl
  | cons id rest ih =>
    rw [List.map_cons, List.foldl_cons, none id]
    exact ih

end SearchStatistics

namespace SearchTree

variable {ρ : Type} [Reporter ρ] {t : SearchTree} {st : SearchState ρ}

def statistics (t : SearchTree) (st : SearchState ρ) : SearchStatistics :=
  SearchStatistics.aggregate t (t.run st).2.progress

structure RunBalances (t : SearchTree) (st : SearchState ρ) : Prop where
  /-- Each decision is followed by one propagation, and some decisions are wrong. -/
  nodes : (t.statistics st).nodes = (t.statistics st).decisions
  wrong : (t.statistics st).wrongDecisions ≤ (t.statistics st).decisions
  solutions : (t.statistics st).solutions = (t.run st).2.context.listener.count
  /-- The frame of the root and those that are entered by decisions end with a solution or with a
  backtrack, if they come to an end. -/
  ends : st.store.pushLevel.consistency.1 = true →
    (t.statistics st).solutions + (t.statistics st).backtracks ≤
      1 + ((t.statistics st).decisions - (t.statistics st).wrongDecisions)
  /-- If nothing is found in time, then each of them ends with a backtrack. -/
  vain : st.store.pushLevel.consistency.1 = true →
    (t.run st).1.found = false → (t.run st).1.timedOut = false →
    (t.statistics st).backtracks =
      1 + ((t.statistics st).decisions - (t.statistics st).wrongDecisions)
  inconsistent : st.store.pushLevel.consistency.1 = false → t.statistics st = Counters.zero

omit [Reporter ρ] in
theorem total_started (fresh : st.progress = Progress.ofTree t) {size : Counters → Nat}
    (none : size Counters.zero = 0) : (SearchState.started t st).progress.total size = 0 := by
  show (st.progress.start _ _).total size = 0
  rw [Progress.total_start, fresh, Progress.total_ofTree t none]

/-- A run that searches balances from the start of its frames to its end. -/
theorem Grown.balances_run (grown : t.Grown) (nodes : st.progress.size = t.size)
    (nonempty : 0 < t.size) (formed : st.store.Formed)
    (consistent : st.store.pushLevel.consistency.1 = true) :
    ∃ flow, SearchState.Balances 1 (SearchState.started t st) (flow, (t.run st).2) ∧
      (t.run st).1.found = decide (st.context.listener.count < (t.run st).2.accepted) ∧
      (t.run st).1.timedOut = decide (flow = .timedOut) := by
  have found : t.root? = some 0 := root?_of_size_pos nonempty
  obtain ⟨descends, -⟩ := SearchState.descends_started formed consistent t
  have noted := SearchState.uncounted_setState (SearchState.started t st) 0 .labeling
  have started : (SearchState.started t st).progress.size = t.size :=
    (Progress.size_start _ _ _).trans nodes
  obtain ⟨steps, course⟩ := t.exists_course (t.frameBound st.store) 0 0 .start
    ((SearchState.started t st).setState 0 .labeling)
  have balances := course.balances grown (noted.size.trans started) descends.formed
    ⟨nonempty, SearchState.frames_suffice t descends formed⟩
  rw [course.run_eq found consistent]
  exact ⟨_, (noted.balances.append balances).finish ((SearchState.uncounted_setState _ 0 _).trans
    (SearchState.uncounted_popLevel _)), rfl, rfl⟩

/-- If propagation fails at the start, nothing is counted. -/
theorem statistics_of_inconsistent (nonempty : 0 < t.size)
    (fresh : st.progress = Progress.ofTree t)
    (fails : st.store.pushLevel.consistency.1 = false) : t.statistics st = Counters.zero := by
  unfold statistics
  rw [run_of_inconsistent (root?_of_size_pos nonempty) fails]
  apply SearchStatistics.aggregate_eq_zero
  intro id
  calc ((SearchState.started t st).progress.setState 0 .exhausted).counters id
      = (SearchState.started t st).progress.counters id :=
        Progress.counters_modifyNode _ _ _ fun _ => rfl
    _ = st.progress.counters id := Progress.counters_start _ _ _ _
    _ = Counters.zero := by rw [fresh, Progress.counters_ofTree]

/-- A first run over a chain balances, if its solutions are counted. -/
theorem IsChain.runBalances (chain : t.IsChain) (grown : t.Grown) (nonempty : 0 < t.size)
    (formed : st.store.Formed) (fresh : st.progress = Progress.ofTree t)
    (none : st.context.listener.count = 0)
    (solutions : (t.statistics st).solutions = (t.run st).2.context.listener.count) :
    t.RunBalances st := by
  cases consistent : st.store.pushLevel.consistency.1 with
  | false =>
    have zero := statistics_of_inconsistent nonempty fresh consistent
    refine ⟨?_, ?_, solutions, fun succeeds => ?_, fun succeeds => ?_, fun _ => zero⟩
    · rw [zero]
      rfl
    · rw [zero]
      exact Nat.le_refl _
    · cases consistent.symm.trans succeeds
    · cases consistent.symm.trans succeeds
  | true =>
    have nodes : st.progress.size = t.size := by
      rw [fresh]
      exact Array.size_map
    obtain ⟨flow, ⟨size, same, wrong, -, ends, all⟩, found, timedOut⟩ :=
      grown.balances_run nodes nonempty formed consistent
    unfold SearchState.ends at ends all
    have size' : (t.run st).2.progress.size = t.size :=
      size.trans ((Progress.size_start _ _ _).trans nodes)
    have accepted : (SearchState.started t st).accepted = 0 :=
      (congrArg Listener.count (SearchState.deadline?_context st.context).1).trans none
    -- Nothing is counted at the start, and the statistics have what is counted at the end.
    have started (size : Counters → Nat) (zero : size Counters.zero = 0) :
        (SearchState.started t st).progress.total size = 0 := total_started fresh zero
    have ended (size : Counters → Nat)
        (adds : ∀ total node, size (SearchStatistics.add total node) = size total + size node)
        (zero : size Counters.zero = 0) :
        (t.run st).2.progress.total size = size (t.statistics st) :=
      (SearchStatistics.aggregate_eq_total chain size' adds zero).symm
    rw [started Counters.decisions rfl] at same wrong ends all
    rw [started Counters.wrongDecisions rfl] at wrong ends all
    rw [started Counters.backtracks rfl, accepted] at ends all
    rw [started Counters.nodes rfl] at same
    rw [ended Counters.decisions (fun _ _ => rfl) rfl] at same wrong ends all
    rw [ended Counters.wrongDecisions (fun _ _ => rfl) rfl] at wrong ends all
    rw [ended Counters.backtracks (fun _ _ => rfl) rfl] at ends all
    rw [ended Counters.nodes (fun _ _ => rfl) rfl] at same
    have counted : (t.run st).2.accepted = (t.statistics st).solutions := solutions.symm
    rw [counted] at ends all found
    rw [none] at found
    refine ⟨by omega, by omega, solutions, fun _ => by omega, fun _ vain inTime => ?_,
      fun fails => nomatch consistent.symm.trans fails⟩
    have nothing : (t.statistics st).solutions = 0 := by
      rw [found] at vain
      exact Nat.eq_zero_of_not_pos (of_decide_eq_false vain)
    rw [timedOut] at inTime
    obtain ⟨-, exact_⟩ := all nothing (of_decide_eq_false inTime)
    omega

end SearchTree

namespace SearchSpec

variable {ρ : Type} [Reporter ρ] {spec : SearchSpec} {names : Names} {s : Store}
  {context : Context ρ} {t : SearchTree} {st : SearchState ρ}

/-- What the first run over a tree that was built counts balances, whatever its explorations and
its goal, from whatever store, with whatever clock, limits and listener, if the listener has not
accepted anything. -/
theorem runBalances_of_build (built : (spec.build names s context).outcome = .ok (.tree t))
    (reached : st.store.Reachable) (fresh : st.progress = Progress.ofTree t)
    (none : st.context.listener.count = 0) : t.RunBalances st := by
  have solutions := solutions_aggregate_of_build built fresh none
  have grown := grown_of_build built
  have nonempty := size_pos_of_build built
  obtain ⟨stages, -, objective, -, -, -, rfl, -⟩ := exists_of_build built
  exact (SearchTree.isChain_ofStages _ stages).runBalances grown nonempty reached.formed fresh
    none solutions

/-- Four different numbers out of three: each candidate of the first stage enters a frame of the
second one, in which both candidates fail. -/
theorem runBalances_of_build_vain :
    ∃ (spec : SearchSpec) (s : Store) (t : SearchTree) (st : SearchState NoReporter),
      (spec.build Names.empty s
        (Context.ofListener (Listener.all none) : Context NoReporter)).outcome = .ok (.tree t) ∧
      st.store.Reachable ∧ t.RunBalances st ∧ t.statistics st = ⟨9, 9, 6, 4, 1, 0⟩ := by
  let s := StoreOperation.applyAll Store.empty
    [.declareInt "x" 0 2, .declareInt "y" 0 2, .declareInt "z" 0 2, .declareInt "w" 0 2,
      .impose (.allDifferent [⟨0⟩, ⟨1⟩, ⟨2⟩, ⟨3⟩])]
  let spec : SearchSpec := ⟨.satisfy, none,
    some (.seq [.leaf .int ⟨[⟨0⟩], some .inputOrder, some .min, .complete⟩,
      .leaf .int ⟨[⟨1⟩, ⟨2⟩, ⟨3⟩], some .inputOrder, some .min, .complete⟩])⟩
  let context : Context NoReporter := Context.ofListener (Listener.all none)
  let t := SearchTree.ofStages none
    [⟨⟨.int, [⟨0⟩], .inputOrder, .min, .complete, .ascending⟩, .explicit⟩,
      ⟨⟨.int, [⟨1⟩, ⟨2⟩, ⟨3⟩], .inputOrder, .min, .complete, .ascending⟩, .explicit⟩]
  have built : (spec.build Names.empty s context).outcome = .ok (.tree t) := rfl
  have reached : s.Reachable := Store.Reachable.empty.applyAll (by decide)
  let st : SearchState NoReporter := ⟨Progress.ofTree t, s, context⟩
  have begins : st.store.Reachable := reached
  exact ⟨spec, s, t, st, built, reached, runBalances_of_build built begins rfl rfl,
    by decide +kernel⟩

end SearchSpec

end StagedSearch
