/-
# The candidates of a variable part its values

Whatever value order lists them, the candidates of an undecided variable are about that
variable, exclude one another, leave no decided table below out, and each of them leaves less
to decide. A random order is no exception, whatever its generator says: shuffling only
exchanges places.
-/

import Mathlib.Data.List.Perm.Basic
import StagedSearch.Branching.ValueOrder
import StagedSearch.Branching.VariableOrder
import StagedSearch.Proofs.Domain.Listing
import StagedSearch.Proofs.Propagation.Stable

namespace StagedSearch

/-! ## Taking candidates one by one -/

namespace Candidates

theorem toList_of_nextAscending {var : VarId} {intervals : List Interval} :
    match nextAscending var intervals with
    | none => (ascending var intervals).toList = []
    | some (choice, rest) => (ascending var intervals).toList = choice :: rest.toList := by
  induction intervals with
  | nil => rfl
  | cons i rest ih =>
    unfold nextAscending
    by_cases open_ : i.min < i.max
    · rw [if_pos open_]
      simp [toList, Interval.values_eq_cons open_]
    · rw [if_neg open_]
      by_cases single : i.min = i.max
      · rw [if_pos single]
        simp [toList, Interval.values_of_eq single]
      · rw [if_neg single]
        have skipped : (ascending var (i :: rest)).toList = (ascending var rest).toList := by
          simp [toList, Interval.values_of_lt (by omega : i.max < i.min)]
        rw [skipped]
        exact ih

theorem toList_of_nextDescending {var : VarId} {intervals : List Interval} :
    match nextDescending var intervals with
    | none => (descending var intervals).toList = []
    | some (choice, rest) => (descending var intervals).toList = choice :: rest.toList := by
  induction intervals with
  | nil => rfl
  | cons i rest ih =>
    unfold nextDescending
    by_cases open_ : i.min < i.max
    · rw [if_pos open_]
      simp [toList, Interval.largest_count, Interval.values_eq_concat open_]
    · rw [if_neg open_]
      by_cases single : i.min = i.max
      · rw [if_pos single]
        simp [toList, Interval.largest_count, Interval.values_of_eq single, single]
      · rw [if_neg single]
        have skipped : (descending var (i :: rest)).toList = (descending var rest).toList := by
          simp [toList, Interval.largest_count, Interval.values_of_lt (by omega : i.max < i.min)]
        rw [skipped]
        exact ih

/-- Taking choices one by one takes those that are meant, in their order. -/
theorem toList_of_next? (candidates : Candidates) :
    match candidates.next? with
    | none => candidates.toList = []
    | some (choice, rest) => candidates.toList = choice :: rest.toList := by
  match candidates with
  | ascending _ _ => exact toList_of_nextAscending
  | descending _ _ => exact toList_of_nextDescending
  | listed [] => rfl
  | listed (_ :: _) => rfl

theorem next?_of_toList_nil {candidates : Candidates} (none : candidates.toList = []) :
    candidates.next? = Option.none := by
  have meant := candidates.toList_of_next?
  cases taken : candidates.next? with
  | none => rfl
  | some pair =>
    rw [taken, none] at meant
    cases meant

theorem next?_of_toList_cons {candidates : Candidates} {choice : Choice} {choices : List Choice}
    (some : candidates.toList = choice :: choices) :
    ∃ rest, candidates.next? = Option.some (choice, rest) ∧ rest.toList = choices := by
  have meant := candidates.toList_of_next?
  cases taken : candidates.next? with
  | none =>
    rw [taken, some] at meant
    cases meant
  | some pair =>
    obtain ⟨first, rest⟩ := pair
    rw [taken, some] at meant
    obtain ⟨rfl, left⟩ := List.cons.inj meant
    exact ⟨rest, rfl, left.symm⟩

end Candidates

/-! ## Random orders -/

namespace Shuffle

theorem swapIfInBounds_perm {α : Type} (values : Array α) (i j : Nat) :
    (values.swapIfInBounds i j).Perm values := by
  rw [Array.swapIfInBounds_def]
  split
  · split
    · exact Array.swap_perm _ _
    · exact .rfl
  · exact .rfl

theorem exchange_perm {α : Type} (count index : Nat) (values : Array α) (source : Source) :
    (exchange count index values source).1.Perm values := by
  induction count generalizing index values source with
  | zero => exact .rfl
  | succ count ih => exact (ih _ _ _).trans (swapIfInBounds_perm values _ _)

end Shuffle

/-- Shuffling only changes the order. -/
theorem shuffle_perm {α : Type} (values : List α) (generator : Generator) :
    (shuffle values generator).1.Perm values := by
  unfold shuffle
  split
  · exact .rfl
  · exact (Shuffle.exchange_perm _ _ _ _).toList

/-! ## What a choice says about a table -/

namespace DomainTable

/-- The table is as the choice says. -/
def Obeys (t : DomainTable) : Choice → Prop
  | .assign var value => t.Decides var value
  | .takeIn var element => ∃ d, t.set? var = some d ∧ element ∈ d.glb
  | .leaveOut var element => ∃ d, t.set? var = some d ∧ element ∉ d.lub

/-- How much there is to decide about a variable: whether it is decided, or the undecided
elements of a set. -/
def effort (t : DomainTable) (var : VarId) : Nat :=
  match t.get? var with
  | some (.int d) => if d.isSingleton then 0 else 1
  | some (.set d) => d.undecided.length
  | none => 0

def Decided (t : DomainTable) (var : VarId) : Prop :=
  ∃ d, t.get? var = some d ∧ d.isSingleton = true

variable {p t u : DomainTable} {var : VarId} {choice : Choice}

theorem int?_congr (same : t.get? var = u.get? var) : t.int? var = u.int? var := by
  unfold int?
  rw [same]

theorem set?_congr (same : t.get? var = u.get? var) : t.set? var = u.set? var := by
  unfold set?
  rw [same]

/-- A choice is about nothing but its variable. -/
theorem Obeys.congr (obeys : t.Obeys choice) (same : t.get? choice.var = u.get? choice.var) :
    u.Obeys choice := by
  cases choice with
  | assign var value =>
    obtain ⟨d, here, only⟩ := obeys
    exact ⟨d, (int?_congr same).symm.trans here, only⟩
  | takeIn var element =>
    obtain ⟨d, here, inside⟩ := obeys
    exact ⟨d, (set?_congr same).symm.trans here, inside⟩
  | leaveOut var element =>
    obtain ⟨d, here, outside⟩ := obeys
    exact ⟨d, (set?_congr same).symm.trans here, outside⟩

/-- What is below a table that obeys a choice obeys it too, if the variable still has a
value. -/
theorem Obeys.of_within (obeys : t.Obeys choice) (left : p.Canonical) (right : t.Canonical)
    (within : p.Within t) (filled : ∀ d, p.get? choice.var = some d → d.HasValue) :
    p.Obeys choice := by
  cases choice with
  | assign var value =>
    obtain ⟨e, there, only⟩ := obeys
    have decided : (Domain.int e).isSingleton = true := Option.isSome_of_eq_some only
    obtain ⟨d, here, inner⟩ := within.smaller (int?_eq_some_iff.1 there)
    obtain rfl := inner.eq_of_isSingleton (left _ _ here)
      (right _ _ (int?_eq_some_iff.1 there)) (filled d here) decided
    exact ⟨e, int?_eq_some_iff.2 here, only⟩
  | takeIn var element =>
    obtain ⟨e, there, inside⟩ := obeys
    obtain ⟨d, here, inner⟩ := within.smaller (set?_eq_some_iff.1 there)
    cases d with
    | int d => exact inner.elim
    | set d => exact ⟨d, set?_eq_some_iff.2 here, inner.1 element inside⟩
  | leaveOut var element =>
    obtain ⟨e, there, outside⟩ := obeys
    obtain ⟨d, here, inner⟩ := within.smaller (set?_eq_some_iff.1 there)
    cases d with
    | int d => exact inner.elim
    | set d => exact ⟨d, set?_eq_some_iff.2 here, fun inside => outside (inner.2 element inside)⟩

/-- Below a table there is no more to decide, as long as nothing was emptied. -/
theorem effort_le (left : p.Canonical) (right : t.Canonical) (within : p.Within t)
    (filled : ∀ d e, p.get? var = some d → t.get? var = some e → e.HasValue → d.HasValue) :
    p.effort var ≤ t.effort var := by
  cases there : t.get? var with
  | none =>
    have related := within var
    rw [there] at related
    cases here : p.get? var with
    | none => simp [effort, here, there]
    | some d => rw [here] at related; cases related
  | some e =>
    obtain ⟨d, here, inner⟩ := within.smaller there
    cases d with
    | int d =>
      cases e with
      | set e => exact inner.elim
      | int e =>
        simp only [effort, here, there]
        by_cases decided : e.isSingleton = true
        · have value := Domain.HasValue.of_isSingleton (d := .int e) (right _ _ there) decided
          have equal := inner.eq_of_isSingleton (left _ _ here) (right _ _ there)
            (filled _ _ here there value) decided
          rw [Domain.int.inj equal]
        · rw [if_neg decided]
          split <;> omega
    | set d =>
      cases e with
      | int e => exact inner.elim
      | set e =>
        simp only [effort, here, there]
        have formed : d.Canonical := left _ _ here
        exact (formed.nodup_undecided.subperm (Domain.undecided_subset inner)).length_le

end DomainTable

/-- No table is as both choices say. -/
def Choice.Opposed (first second : Choice) : Prop :=
  ∀ t : DomainTable, t.Canonical → t.Obeys first → ¬ t.Obeys second

/-- The choices part the tables below a table by what they have at a variable. -/
structure DomainTable.Parts (t : DomainTable) (var : VarId) (choices : List Choice) : Prop where
  about : ∀ choice ∈ choices, choice.var = var
  opposed : choices.Pairwise Choice.Opposed
  covers : ∀ p : DomainTable, p.Canonical → p.Filled → p.Within t → p.Decided var →
    ∃ choice ∈ choices, p.Obeys choice
  shrinks : ∀ choice ∈ choices, ∀ u : DomainTable, u.Canonical → u.Within t →
    u.Obeys choice → u.effort var < t.effort var

namespace ValueOrder

/-- Whether an order lists the values of a domain, and not those of the other kind. -/
def Suits : ValueOrder → Domain → Prop
  | smallestElement, .set _ => True
  | largestElement, .set _ => True
  | smallestElement, .int _ => False
  | largestElement, .int _ => False
  | _, .int _ => True
  | _, .set _ => False

variable {order : ValueOrder} {s : Store} {var : VarId}

theorem toList_ascending {d : IntDomain} (here : s.domains.get? var = some (.int d)) :
    (ascending.candidates s var).1.candidates.toList = d.values.map (.assign var) := by
  simp only [candidates, here]
  rfl

theorem toList_descending {d : IntDomain} (here : s.domains.get? var = some (.int d)) :
    (descending.candidates s var).1.candidates.toList = d.values.reverse.map (.assign var) := by
  simp only [candidates, here, Candidates.toList, Interval.largest_count]
  rw [IntDomain.values, List.reverse_flatMap]
  rfl

/-- Every order of an integer domain lists its values, each as often as it occurs. -/
theorem exists_perm_values {d : IntDomain} (suits : order.Suits (.int d))
    (here : s.domains.get? var = some (.int d)) :
    ∃ values : List Int, (order.candidates s var).1.candidates.toList =
      values.map (.assign var) ∧ values.Perm d.values := by
  cases order with
  | ascending => exact ⟨d.values, toList_ascending here, .rfl⟩
  | descending => exact ⟨d.values.reverse, toList_descending here, d.values.reverse_perm⟩
  | middleOut =>
    simp only [candidates, here]
    cases least : d.min? with
    | none =>
      have empty : d.intervals = [] := by simpa [IntDomain.min?] using least
      exact ⟨[], rfl, by simp [IntDomain.values, empty]⟩
    | some low =>
      cases greatest : d.max? with
      | none =>
        have empty : d.intervals = [] := by simpa [IntDomain.max?] using greatest
        exact ⟨[], rfl, by simp [IntDomain.values, empty]⟩
      | some high => exact ⟨_, rfl, List.mergeSort_perm _ _⟩
  | random generator =>
    simp only [candidates, here]
    exact ⟨_, rfl, shuffle_perm d.values generator⟩
  | smallestElement => exact suits.elim
  | largestElement => exact suits.elim

theorem parts_values {t : DomainTable} {d : IntDomain} (canonical : t.Canonical)
    (here : t.get? var = some (.int d)) (open_ : d.isSingleton = false) {values : List Int}
    (perm : values.Perm d.values) : t.Parts var (values.map (.assign var)) where
  about choice member := by
    obtain ⟨value, -, rfl⟩ := List.mem_map.1 member
    rfl
  opposed := by
    have formed : d.Canonical := canonical _ _ here
    rw [List.pairwise_map]
    refine (perm.nodup_iff.2 formed.nodup_values).imp fun different t formed first second => ?_
    exact different (((second.holds_iff formed).1 ((first.holds_iff formed).2 rfl)))
  covers p formed filled within decided := by
    obtain ⟨e, there, single⟩ := decided
    obtain ⟨f, found, inner⟩ := within.larger there
    obtain rfl := Option.some.inj (here.symm.trans found)
    cases e with
    | set e => exact inner.elim
    | int e =>
      obtain ⟨value, only⟩ := Option.isSome_iff_exists.1 single
      have inside := ((formed.int? (DomainTable.int?_eq_some_iff.2 there)).value?_eq_some_iff.1
        only value).2 rfl
      refine ⟨.assign var value, List.mem_map_of_mem ?_, e, DomainTable.int?_eq_some_iff.2 there,
        only⟩
      exact perm.mem_iff.2 (IntDomain.mem_values.2 (inner value inside))
  shrinks choice member u formed within obeys := by
    obtain ⟨value, -, rfl⟩ := List.mem_map.1 member
    obtain ⟨e, there, only⟩ := obeys
    have single : e.isSingleton = true := Option.isSome_of_eq_some only
    simp [DomainTable.effort, here, DomainTable.int?_eq_some_iff.1 there, open_, single]

theorem parts_element {t : DomainTable} {d : SetDomain} (here : t.get? var = some (.set d))
    {element : Int} (undecided : element ∈ d.undecided) :
    t.Parts var [.takeIn var element, .leaveOut var element] where
  about choice member := by
    rcases List.mem_pair.1 member with rfl | rfl <;> rfl
  opposed := by
    rw [List.pairwise_pair]
    rintro t formed ⟨e, there, inside⟩ ⟨f, found, outside⟩
    obtain rfl := Option.some.inj (there.symm.trans found)
    exact outside ((formed.set? there).nested element inside)
  covers p formed filled within decided := by
    obtain ⟨e, there, single⟩ := decided
    obtain ⟨f, found, inner⟩ := within.larger there
    obtain rfl := Option.some.inj (here.symm.trans found)
    cases e with
    | int e => exact inner.elim
    | set e =>
      have there := DomainTable.set?_eq_some_iff.2 there
      have equal := (formed.set? there).isSingleton_iff.1 single
      by_cases inside : element ∈ e.glb
      · exact ⟨.takeIn var element, by simp, e, there, inside⟩
      · exact ⟨.leaveOut var element, by simp, e, there, equal ▸ inside⟩
  shrinks choice member u formed within obeys := by
    have less {e : SetDomain} (there : u.set? var = some e) (gone : element ∉ e.undecided) :
        u.effort var < t.effort var := by
      have found := DomainTable.set?_eq_some_iff.1 there
      obtain ⟨f, found', inner⟩ := within.larger found
      obtain rfl := Option.some.inj (here.symm.trans found')
      simp only [DomainTable.effort, here, found]
      refine (List.subperm_of_subset (formed.set? there).nodup_undecided
        (Domain.undecided_subset inner)).length_le.lt_of_ne fun equal => ?_
      have perm := (List.subperm_of_subset (formed.set? there).nodup_undecided
        (Domain.undecided_subset inner)).perm_of_length_le equal.ge
      exact gone (perm.mem_iff.2 undecided)
    rcases List.mem_pair.1 member with rfl | rfl
    · obtain ⟨e, there, inside⟩ := obeys
      exact less there fun open_ => (SetDomain.mem_undecided.1 open_).2 inside
    · obtain ⟨e, there, outside⟩ := obeys
      exact less there fun open_ => outside (SetDomain.mem_undecided.1 open_).1

/-- The candidates of an undecided variable part the tables below. -/
theorem parts_candidates {d : Domain} (suits : order.Suits d) (canonical : s.domains.Canonical)
    (here : s.domains.get? var = some d) (open_ : d.isSingleton = false) :
    s.domains.Parts var (order.candidates s var).1.candidates.toList := by
  cases d with
  | int d =>
    obtain ⟨values, equal, perm⟩ := exists_perm_values suits here
    rw [equal]
    exact parts_values canonical here open_ perm
  | set d =>
    have formed : d.Canonical := canonical _ _ here
    have some : d.undecided ≠ [] := fun none => by
      have := formed.isSingleton_iff_undecided.2 none
      rw [show d.isSingleton = false from open_] at this
      cases this
    cases order with
    | smallestElement =>
      simp only [candidates, here, List.head?_eq_some_head some]
      exact parts_element here (List.head_mem some)
    | largestElement =>
      simp only [candidates, here, List.getLast?_eq_some_getLast some]
      exact parts_element here (List.getLast_mem some)
    | ascending => exact suits.elim
    | descending => exact suits.elim
    | middleOut => exact suits.elim
    | random generator => exact suits.elim

/-- An order stays for the same kind of domains. -/
theorem Suits.candidates {d : Domain} (suits : order.Suits d) (s : Store) (var : VarId) :
    (order.candidates s var).2.Suits d := by
  unfold ValueOrder.candidates
  repeat' split
  all_goals first | exact suits | (cases d <;> exact suits)

end ValueOrder

/-! ## The next variable -/

namespace VariableOrder

theorem mem_of_firstBest {α : Type} {better : α → α → Bool} {list : List α} {a : α}
    (best : firstBest better list = some a) : a ∈ list := by
  have folded (rest : List α) (b : α) :
      rest.foldl (fun best c => if better c best then c else best) b ∈ b :: rest := by
    induction rest generalizing b with
    | nil => simp
    | cons c rest ih =>
      rw [List.foldl_cons]
      split
      · exact List.mem_cons_of_mem b (ih c)
      · rcases List.mem_cons.1 (ih b) with equal | later
        · rw [equal]
          exact List.mem_cons_self
        · exact List.mem_cons_of_mem b (List.mem_cons_of_mem c later)
  cases list with
  | nil => cases best
  | cons b rest =>
    cases best
    exact folded rest b

variable {order : VariableOrder} {s : Store} {vars : List VarId}

/-- The variable that is picked is listed and undecided. -/
theorem select?_eq_some {var : VarId} (picked : order.select? s vars = some var) :
    var ∈ vars ∧ s.isSingleton var = false := by
  have member := List.mem_filter.1 (mem_of_firstBest picked)
  exact ⟨member.1, by simpa using member.2⟩

/-- Nothing is picked only when every listed variable is decided. -/
theorem select?_eq_none (none : order.select? s vars = none) :
    ∀ var ∈ vars, s.isSingleton var = true := by
  unfold select? at none
  have empty : vars.filter (!s.isSingleton ·) = [] := by
    cases list : vars.filter (!s.isSingleton ·) with
    | nil => rfl
    | cons var rest => rw [list] at none; cases none
  intro var member
  simpa using List.filter_eq_nil_iff.1 empty var member

/-- In the order of the list, everything before the variable that is picked is decided. -/
theorem exists_of_select?_inputOrder {var : VarId} (picked : inputOrder.select? s vars = some var) :
    ∃ before after, vars = before ++ var :: after ∧
      ∀ other ∈ before, s.isSingleton other = true := by
  have first (list : List VarId) : firstBest (inputOrder.better s) list = list.head? := by
    cases list with
    | nil => rfl
    | cons var rest => simp [firstBest, better]
  rw [select?, first, List.head?_filter, List.find?_eq_some_iff_append] at picked
  obtain ⟨-, before, after, parts, decided⟩ := picked
  exact ⟨before, after, parts, fun other member => by simpa using decided other member⟩

end VariableOrder

end StagedSearch
