/-
# Which candidates are admitted

The candidates of a decision are tried in order, and the first one that a decorator leaves out
ends the trials. Nothing is lost by that: decorators leave out a later candidate wherever they leave
out an earlier one. The reason is that a later candidate has at least as many discrepancies, and at
most as large a share of the credit. What a decorator makes of the path is seen by those
after it, so the two candidates are followed through the list side by side.

With two credits in one list this would fail: a candidate whose first share is one unit is explored
completely, so a second credit does not ask it for anything, but it may refuse an earlier
candidate that has two units left.

The shares of one decision are as equal as whole numbers can be, and nothing of the credit is kept
back or spent twice.
-/

import StagedSearch.Proofs.Search.Budget

namespace StagedSearch

/-- The places of the candidates that are decided at a node after so many decisions there. -/
def SearchStep.indicesAt {ρ : Type} (id : NodeId) (depth : Nat) (steps : List (SearchStep ρ)) :
    List Nat :=
  ((trialsAt id steps).filter fun trial => trial.depth = depth).map Trial.index

namespace Decorator

def isCredit : Decorator → Bool
  | lds _ => false
  | credit _ _ => true

/-- No decorator leaves the candidate out. -/
def admits (decorators : List Decorator) (path : PathState) (size index : Nat) : Bool :=
  (stepAll? decorators path index size).isSome

/-- The candidates that are tried from some place on: the trials end with the first candidate that
is left out. -/
def tried (decorators : List Decorator) (path : PathState) (size index number : Nat) : List Nat :=
  (List.range' index number).takeWhile (admits decorators path size)

/-- What decorators leave out of a decision. -/
structure Prunes (decorators : List Decorator) (path : PathState) (size : Nat) : Prop where
  /-- Behind a candidate that is left out, all are. -/
  antitone : ∀ i j, i ≤ j → stepAll? decorators path i size = none →
    stepAll? decorators path j size = none
  /-- To end with the first candidate that is left out is to pass over those that are. -/
  visits : ∀ number, tried decorators path size 0 number =
    (List.range number).filter (admits decorators path size)
  /-- The trials of a decision go on with the candidates that are admitted, and only what ends the
  search ends them earlier. -/
  decides : ∀ (ρ : Type) [Reporter ρ] (t : SearchTree) (frames : Nat) (id : NodeId)
    (node : SearchNode) (depth : Nat) (candidates : Candidates) (st : SearchState ρ)
    (steps : List (SearchStep ρ)) (outcome : Flow × SearchState ρ), t.Grown →
      t.node? id = some node → node.decorators = decorators →
      t.Course frames (.trials id depth path size 0 candidates) st steps outcome →
        let admitted := (List.range candidates.toList.length).filter (admits decorators path size)
        SearchStep.indicesAt id depth steps <+: admitted ∧
          (outcome.1 = .proceed → SearchStep.indicesAt id depth steps = admitted)
  /-- A decorator counts up a number of discrepancies that is below the greatest of 32 bits. -/
  fits : ∀ before decorator after, decorators = before ++ decorator :: after →
    ∀ index next, stepAll? before path index size = some next →
      next.discrepancies + 1 < Unsigned32.modulus

/-- The units that a candidate gets: none if it is left out, one if everything below it is
explored, and otherwise what can be shared out below it. -/
def unitsBelow : Option PathState → Nat
  | some ⟨_, .active available _⟩ => available
  | some ⟨_, .exhaustive⟩ => 1
  | some ⟨_, .fresh⟩ => 0
  | none => 0

/-- The units of the candidates of a decision descend, are equal up to one unit, and add up to what
is available. -/
structure Splits (units limit : Nat) (path : PathState) (size available : Nat) : Prop where
  antitone : ∀ i j, i ≤ j →
    unitsBelow (stepAll? [credit units limit] path j size) ≤
      unitsBelow (stepAll? [credit units limit] path i size)
  even : ∀ i j, unitsBelow (stepAll? [credit units limit] path i size) ≤
    unitsBelow (stepAll? [credit units limit] path j size) + 1
  total : totalSize (fun index => unitsBelow (stepAll? [credit units limit] path index size))
    (List.range size) = available

/-! ## Shares -/

variable {units limit size i j : Nat} {available : Nat}

theorem creditShare_antitone (later : i ≤ j) :
    creditShare available j size ≤ creditShare available i size := by
  unfold creditShare
  split <;> split <;> omega

theorem creditShare_le_succ (available size i j : Nat) :
    creditShare available i size ≤ creditShare available j size + 1 := by
  unfold creditShare
  split <;> split <;> omega

/-- The first shares: equal parts, and a unit more as long as some are left over. -/
theorem totalSize_creditShare (available size number : Nat) :
    totalSize (fun index => creditShare available index size) (List.range number) =
      number * (available / size) + min number (available % size) := by
  induction number with
  | zero => simp
  | succ number ih =>
    rw [List.range_succ, totalSize_append, ih, totalSize_cons, totalSize_nil, Nat.succ_mul]
    unfold creditShare
    split <;> omega

/-- All shares together are what is available. -/
theorem totalSize_creditShare_eq (available : Nat) (positive : 1 ≤ size) :
    totalSize (fun index => creditShare available index size) (List.range size) = available := by
  have smaller : available % size < size := Nat.mod_lt _ positive
  rw [totalSize_creditShare, Nat.min_eq_right smaller.le]
  exact Nat.div_add_mod available size

theorem unitsBelow_spend (discrepancies share depth : Nat) :
    unitsBelow ((spend share depth).map fun credit => ⟨discrepancies, credit⟩) = share := by
  match share with
  | 0 => rfl
  | 1 => rfl
  | share + 2 => rfl

/-- Where credit is shared out, a candidate gets its share. -/
theorem unitsBelow_credit {path : PathState}
    (shared : path.credit.shared? units limit = some available) (index : Nat) :
    unitsBelow (stepAll? [credit units limit] path index size) =
      creditShare available index (max 1 size) := by
  rw [stepAll?_singleton, step?_credit, creditBelow?_eq, shared]
  simp only [CreditState.share, shared]
  exact unitsBelow_spend path.discrepancies _ _

theorem splits_of_shared {path : PathState} (positive : 1 ≤ size)
    (shared : path.credit.shared? units limit = some available) :
    Splits units limit path size available := by
  have share (index : Nat) : unitsBelow (stepAll? [credit units limit] path index size) =
      creditShare available index size := by
    rw [unitsBelow_credit shared, Nat.max_eq_right positive]
  constructor
  · intro i j later
    rw [share, share]
    exact creditShare_antitone later
  · intro i j
    rw [share, share]
    exact creditShare_le_succ available size i j
  · simp only [share]
    exact totalSize_creditShare_eq available positive

/-! ## Two candidates side by side -/

theorem stepAll?_cons (decorator : Decorator) (decorators : List Decorator) (path : PathState)
    (index size : Nat) :
    stepAll? (decorator :: decorators) path index size =
      (decorator.step? path index size).bind fun next => stepAll? decorators next index size :=
  rfl

/-- An earlier candidate is as far as a later one: it has no more discrepancies, and its credit has
not been touched if it still matters to a decorator. -/
structure Leads (decorators : List Decorator) (p q : PathState) : Prop where
  fewer : p.discrepancies ≤ q.discrepancies
  same : decorators.countP isCredit = 0 ∨ p.credit = q.credit

variable {decorator : Decorator} {decorators : List Decorator} {p q q' : PathState}

theorem step?_lds_eq_some_iff {limit index : Nat} {path next : PathState} :
    (lds limit).step? path index size = some next ↔
      (index = 0 ∨ path.discrepancies + 1 ≤ limit) ∧
        next = ⟨path.discrepancies + if 0 < index then 1 else 0, path.credit⟩ := by
  have same : (lds limit).step? path index size =
      if index = 0 ∨ path.discrepancies + (if 0 < index then 1 else 0) ≤ limit then
        some ⟨path.discrepancies + (if 0 < index then 1 else 0), path.credit⟩ else none := rfl
  rw [same, Option.ite_none_right_eq_some, Option.some.injEq, eq_comm (a := next)]
  apply and_congr_left'
  by_cases first : index = 0
  · simp [first]
  · simp [first, Nat.pos_of_ne_zero first]

theorem spend_ne_none_iff {share depth : Nat} : spend share depth ≠ none ↔ share ≠ 0 := by
  match share with
  | 0 => simp [spend]
  | 1 => simp [spend]
  | share + 2 => simp [spend]

/-- Credit that is enough for a later candidate is enough for an earlier one. -/
theorem creditBelow?_ne_none (units limit : Nat) (state : CreditState) (later : i ≤ j)
    (admitted : creditBelow? units limit state j size ≠ none) :
    creditBelow? units limit state i size ≠ none := by
  rw [creditBelow?_eq] at admitted ⊢
  cases shared : state.shared? units limit with
  | none => exact nofun
  | some available =>
    simp only [shared, CreditState.share, spend_ne_none_iff] at admitted ⊢
    have least : creditShare available j (max 1 size) ≤ creditShare available i (max 1 size) :=
      creditShare_antitone later
    omega

/-- A decorator that admits the later candidate admits the earlier one. -/
theorem exists_step?_of_leads (one : (decorator :: decorators).countP isCredit ≤ 1)
    (leads : Leads (decorator :: decorators) p q) (later : i ≤ j)
    (admitted : decorator.step? q j size = some q') :
    ∃ p', decorator.step? p i size = some p' ∧ Leads decorators p' q' := by
  obtain ⟨fewer, same⟩ := leads
  cases decorator with
  | lds limit =>
    obtain ⟨allowed, rfl⟩ := step?_lds_eq_some_iff.1 admitted
    refine ⟨_, step?_lds_eq_some_iff.2 ⟨?_, rfl⟩, ?_, ?_⟩
    · rcases allowed with rfl | within
      · exact .inl (Nat.le_zero.1 later)
      · exact .inr ((Nat.succ_le_succ fewer).trans within)
    · dsimp only
      split <;> split <;> omega
    · rwa [List.countP_cons_of_neg (by simp [isCredit])] at same
  | credit units limit =>
    rw [List.countP_cons_of_pos (by rfl)] at one same
    have equal : p.credit = q.credit := same.resolve_left (Nat.succ_ne_zero _)
    rw [step?_credit, Option.map_eq_some_iff] at admitted
    obtain ⟨below, known, rfl⟩ := admitted
    have enough : creditBelow? units limit p.credit i size ≠ none := by
      rw [equal]
      apply creditBelow?_ne_none units limit q.credit later
      rw [known]
      exact nofun
    obtain ⟨below', known'⟩ := Option.ne_none_iff_exists'.1 enough
    refine ⟨{ p with credit := below' }, ?_, fewer, .inl (by omega)⟩
    rw [step?_credit, known', Option.map_some]

/-- Decorators that admit a later candidate admit an earlier one. The induction is on the
decorators, and what it carries is that the earlier candidate leads. -/
theorem exists_stepAll?_of_leads (one : decorators.countP isCredit ≤ 1)
    (leads : Leads decorators p q) (later : i ≤ j)
    (admitted : stepAll? decorators q j size = some q') :
    ∃ p', stepAll? decorators p i size = some p' := by
  induction decorators generalizing p q with
  | nil => exact ⟨p, rfl⟩
  | cons decorator decorators ih =>
    have fewer : decorators.countP isCredit ≤ 1 :=
      (List.sublist_cons_self decorator decorators).countP_le.trans one
    rw [stepAll?_cons, Option.bind_eq_some_iff] at admitted
    obtain ⟨between, first, rest⟩ := admitted
    obtain ⟨between', first', leads'⟩ := exists_step?_of_leads one leads later first
    obtain ⟨p', rest'⟩ := ih fewer leads' rest
    exact ⟨p', by rw [stepAll?_cons, first']; exact rest'⟩

/-- Behind a candidate that is left out, all are. -/
theorem stepAll?_eq_none_of_le {path : PathState} (one : decorators.countP isCredit ≤ 1)
    (later : i ≤ j) (refused : stepAll? decorators path i size = none) :
    stepAll? decorators path j size = none := by
  by_contra admitted
  obtain ⟨q', found⟩ := Option.ne_none_iff_exists'.1 admitted
  obtain ⟨p', found'⟩ :=
    exists_stepAll?_of_leads one ⟨Nat.le_refl path.discrepancies, .inr rfl⟩ later found
  cases refused.symm.trans found'

/-! ## Leaving the loop -/

/-- Where nothing follows behind what is left out, the first elements that are taken are all that
are. -/
theorem takeWhile_eq_filter_of_antitone {taken : Nat → Bool}
    (antitone : ∀ i j, i ≤ j → taken i = false → taken j = false) (start number : Nat) :
    (List.range' start number).takeWhile taken = (List.range' start number).filter taken := by
  induction number generalizing start with
  | zero => rfl
  | succ number ih =>
    rw [List.range'_succ, List.takeWhile_cons, List.filter_cons]
    by_cases here : taken start = true
    · rw [if_pos here, if_pos here, ih]
    · rw [if_neg here, if_neg here]
      symm
      apply List.filter_eq_nil_iff.2
      intro index member
      have behind : start ≤ index := by
        have := (List.mem_range'_1.1 member).1
        omega
      simp [antitone start index behind (by simpa using here)]

theorem admits_eq_false_iff {path : PathState} {index : Nat} :
    admits decorators path size index = false ↔ stepAll? decorators path index size = none := by
  unfold admits
  rw [Option.isSome_eq_false_iff, Option.isNone_iff_eq_none]

theorem antitone_admits {path : PathState} (one : decorators.countP isCredit ≤ 1) :
    ∀ i j, i ≤ j → admits decorators path size i = false →
      admits decorators path size j = false := by
  intro i j later refused
  rw [admits_eq_false_iff] at refused ⊢
  exact stepAll?_eq_none_of_le one later refused

/-- A candidate that is admitted is tried before the later ones. -/
theorem tried_of_next? {path path' : PathState} {index : Nat} {candidates rest : Candidates}
    {choice : Choice} (next : candidates.next? = some (choice, rest))
    (admitted : stepAll? decorators path index size = some path') :
    tried decorators path size index candidates.toList.length =
      index :: tried decorators path size (index + 1) rest.toList.length := by
  have here : admits decorators path size index = true := by
    unfold admits
    rw [admitted, Option.isSome_some]
  unfold tried
  rw [Candidates.toList_of_next?_eq_some next, List.length_cons, List.range'_succ,
    List.takeWhile_cons_of_pos here]

/-- Nothing is tried from a candidate on that is left out. -/
theorem tried_of_refused {path : PathState} {index number : Nat}
    (refused : stepAll? decorators path index size = none) :
    tried decorators path size index number = [] := by
  cases number with
  | zero => rfl
  | succ number =>
    unfold tried
    rw [List.range'_succ, List.takeWhile_cons_of_neg]
    rw [admits_eq_false_iff.2 refused]
    exact Bool.false_ne_true

/-! ## Discrepancies -/

theorem discrepancies_step?_le {path next : PathState} {index : Nat}
    (admitted : decorator.step? path index size = some next) :
    next.discrepancies ≤ path.discrepancies + 1 := by
  cases decorator with
  | lds limit =>
    obtain ⟨-, rfl⟩ := step?_lds_eq_some_iff.1 admitted
    dsimp only
    split <;> omega
  | credit units limit =>
    rw [step?_credit, Option.map_eq_some_iff] at admitted
    obtain ⟨below, -, rfl⟩ := admitted
    exact Nat.le_succ _

/-- Each decorator counts up the discrepancies at most by one. -/
theorem discrepancies_stepAll?_le {path next : PathState} {index : Nat}
    (admitted : stepAll? decorators path index size = some next) :
    next.discrepancies ≤ path.discrepancies + decorators.length := by
  induction decorators generalizing path with
  | nil =>
    obtain rfl := Option.some.inj admitted
    exact Nat.le_refl _
  | cons decorator decorators ih =>
    rw [stepAll?_cons, Option.bind_eq_some_iff] at admitted
    obtain ⟨between, first, rest⟩ := admitted
    have step := discrepancies_step?_le first
    have later := ih rest
    rw [List.length_cons]
    omega

end Decorator

/-! ## The trials of a decision -/

namespace SearchStep

variable {ρ : Type} {id : NodeId} {depth : Nat} {trial : Trial} {st st' : SearchState ρ}
  {first second steps : List (SearchStep ρ)}

/-- A candidate that is not too late and not left out is decided. -/
theorem indicesAt_trial {index size : Nat} {path : PathState} {choice : Choice} :
    indicesAt id depth (look trial st :: decide ⟨id, depth, path, index, size, choice⟩ st' :: steps) =
      index :: indicesAt id depth steps := by
  unfold indicesAt
  rw [trialsAt_look, trialsAt_decide, List.filter_cons_of_pos (by simp), List.map_cons]

@[simp]
theorem indicesAt_append : indicesAt id depth (first ++ second) =
    indicesAt id depth first ++ indicesAt id depth second := by
  unfold indicesAt
  rw [trialsAt_append, List.filter_append, List.map_append]

end SearchStep

namespace SearchTree

variable {ρ : Type} [Reporter ρ] {t : SearchTree} {frames : Nat} {id : NodeId} {node : SearchNode}
  {st : SearchState ρ} {steps : List (SearchStep ρ)} {outcome : Flow × SearchState ρ}

/-- Below a decision no candidate of that decision is decided. -/
theorem Course.indicesAt_below (grown : t.Grown) {depth : Nat} {path : PathState}
    (below : t.Course frames (.label id (depth + 1) path) st steps outcome) :
    SearchStep.indicesAt id depth steps = [] := by
  unfold SearchStep.indicesAt
  rw [below.filter_trialsAt_below grown, List.map_nil]

/-- The candidates of a decision are decided one after the other up to the first that is left out,
unless something ends the search. -/
theorem Course.indicesAt_trials (grown : t.Grown) (here : t.node? id = some node)
    {depth size index : Nat} {path : PathState} {candidates : Candidates}
    (course : t.Course frames (.trials id depth path size index candidates) st steps outcome) :
    let tried := Decorator.tried node.decorators path size index candidates.toList.length
    SearchStep.indicesAt id depth steps <+: tried ∧
      (outcome.1 = .proceed → SearchStep.indicesAt id depth steps = tried) := by
  generalize task_eq : SearchTask.trials id depth path size index candidates = task at course
  induction course generalizing index candidates with
  | spent | missing | solved | descended | branched => cases task_eq
  | emptied none =>
    cases task_eq
    rw [Candidates.toList_of_next?_eq_none none]
    exact ⟨List.nil_prefix, fun _ => rfl⟩
  | late =>
    cases task_eq
    exact ⟨List.nil_prefix, nofun⟩
  | pruned here' _ _ refused =>
    cases task_eq
    obtain rfl := Option.some.inj (here.symm.trans here')
    rw [Decorator.tried_of_refused refused]
    exact ⟨List.nil_prefix, fun _ => rfl⟩
  | failed here' next _ admitted _ _ ih =>
    cases task_eq
    obtain rfl := Option.some.inj (here.symm.trans here')
    obtain ⟨first, whole⟩ := ih rfl
    rw [Decorator.tried_of_next? next admitted, SearchStep.indicesAt_trial]
    exact ⟨List.cons_prefix_cons.2 ⟨rfl, first⟩, fun goes => by rw [whole goes]⟩
  | returned here' next _ admitted _ below _ _ ih =>
    cases task_eq
    obtain rfl := Option.some.inj (here.symm.trans here')
    obtain ⟨first, whole⟩ := ih rfl
    rw [Decorator.tried_of_next? next admitted, SearchStep.indicesAt_trial,
      SearchStep.indicesAt_append, below.indicesAt_below grown, List.nil_append]
    exact ⟨List.cons_prefix_cons.2 ⟨rfl, first⟩, fun goes => by rw [whole goes]⟩
  | ended here' next _ admitted _ below ends =>
    cases task_eq
    obtain rfl := Option.some.inj (here.symm.trans here')
    rw [Decorator.tried_of_next? next admitted, SearchStep.indicesAt_trial,
      below.indicesAt_below grown]
    exact ⟨List.cons_prefix_cons.2 ⟨rfl, List.nil_prefix⟩, fun goes => absurd goes ends⟩

end SearchTree

namespace Decorator

/-- Decorators with at most one credit among them leave out a tail of the candidates of every
decision, and a credit splits what is available exactly. -/
theorem prunes_of_countP_isCredit (decorators : List Decorator) (path : PathState) (size : Nat)
    (one : decorators.countP isCredit ≤ 1)
    (small : path.discrepancies + decorators.length < Unsigned32.modulus) (positive : 1 ≤ size) :
    Prunes decorators path size ∧ ∀ units limit available,
      path.credit.shared? units limit = some available →
        Splits units limit path size available := by
  have visits (number : Nat) : tried decorators path size 0 number =
      (List.range number).filter (admits decorators path size) := by
    rw [List.range_eq_range']
    exact takeWhile_eq_filter_of_antitone (antitone_admits one) 0 number
  refine ⟨⟨?_, visits, ?_, ?_⟩, fun units limit available => splits_of_shared positive⟩
  · intro i j later
    exact stepAll?_eq_none_of_le one later
  · rintro ρ _ t frames id node depth candidates st steps outcome grown here rfl course
    simp only [← visits]
    exact course.indicesAt_trials grown here
  · rintro before decorator after rfl index next admitted
    have most := discrepancies_stepAll?_le admitted
    rw [List.length_append, List.length_cons] at small
    omega

/-- Below a discrepancy, a limit of two leaves room for one more, and five units split into two, two
and one. -/
theorem prunes_of_countP_isCredit_lds_credit :
    Prunes [lds 2, credit 5 10] ⟨1, .fresh⟩ 3 ∧ Splits 5 10 ⟨1, .fresh⟩ 3 5 ∧
      tried [lds 2, credit 5 10] ⟨1, .fresh⟩ 3 0 3 = [0, 1, 2] ∧
      tried [lds 2, credit 2 10] ⟨1, .fresh⟩ 3 0 3 = [0, 1] ∧
      (List.range 3).map (fun index => unitsBelow (stepAll? [credit 5 10] ⟨1, .fresh⟩ index 3)) =
        [2, 2, 1] := by
  obtain ⟨prunes, splits⟩ := prunes_of_countP_isCredit [lds 2, credit 5 10] ⟨1, .fresh⟩ 3
    (by decide) (by decide) (by decide)
  exact ⟨prunes, splits 5 10 5 rfl, by decide, by decide, by decide⟩

/-- With two credits, a candidate behind one that is left out may be admitted. -/
example : (List.range 4).map (admits [credit 7 9, credit 7 9] .start 4) =
    [true, true, false, true] := by decide

end Decorator

end StagedSearch
