/-
# Branching splits what is left of a variable

A store allows an undecided variable some values. Each candidate that an order yields for it keeps
those that fit the candidate (`Choice.Fits`), and committing the candidates splits the values into
parts: none is empty, none is everything, no two have a value in common, and together they are
everything (`Store.Splits`). A value that were in two parts would be found twice by a search, and
one in no part would be lost.

Beside that it is said what is listed (`ValueOrder.Lists`): the values of an integer domain, each
once and in the order that the name promises, or the two choices about one element of a set. The
number of candidates that is reported is exact unless it cannot be reported, which concerns the
whole signed range alone.
-/

import StagedSearch.Proofs.Branching.Offers
import StagedSearch.Proofs.Domain.Sizes
import StagedSearch.Proofs.Store.Exactness
import StagedSearch.Proofs.Store.Values

namespace StagedSearch

/-- The value is one that the choice leaves. -/
def Choice.Fits : Choice → Value → Prop
  | .assign _ number, value => value.asInt? = some number
  | .takeIn _ element, .set elements => element ∈ elements
  | .leaveOut _ element, .set elements => element ∉ elements
  | _, _ => False

namespace Store

/-- The value is of the variable's kind and lies in its domain. -/
def Allows (s : Store) (var : VarId) (value : Value) : Prop :=
  ∃ v d, s.declaration? var = some v ∧ s.domains.get? var = some d ∧ v.kind.Admits d value

/-- Committing the choices, each to the store as it is, splits what the store allows the
variable. -/
structure Splits (s : Store) (var : VarId) (choices : List Choice) : Prop where
  commits : ∀ choice ∈ choices, (choice.commit s).1 = .ok true
  inhabited : ∀ choice ∈ choices, ∃ value, (choice.commit s).2.Allows var value
  smaller : ∀ choice ∈ choices, ∃ value,
    s.Allows var value ∧ ¬ (choice.commit s).2.Allows var value
  disjoint : choices.Pairwise fun first second => ∀ value,
    (first.commit s).2.Allows var value → ¬ (second.commit s).2.Allows var value
  union : ∀ value, s.Allows var value ↔
    ∃ choice ∈ choices, (choice.commit s).2.Allows var value
  spares : ∀ choice ∈ choices, ∀ other, other ≠ var →
    (choice.commit s).2.domains.get? other = s.domains.get? other

end Store

namespace ValueOrder

/-- A value precedes another one if it is nearer to the target, or as near and smaller. -/
def Precedes (target first second : Int) : Prop :=
  (first - target).natAbs < (second - target).natAbs ∨
    (first - target).natAbs = (second - target).natAbs ∧ first < second

/-- The values are in the order that is promised for the domain. The middle of the bounds is
rounded down, and a random order promises nothing. -/
def Places (d : IntDomain) (values : List Int) : ValueOrder → Prop
  | ascending => values.Pairwise (· < ·)
  | descending => values.Pairwise (· > ·)
  | middleOut => ∀ low high, d.min? = some low → d.max? = some high →
    values.Pairwise (Precedes ((low + high).fdiv 2))
  | random _ => True
  | smallestElement | largestElement => False

/-- The element is the one that is promised. -/
def Picks (d : SetDomain) (element : Int) : ValueOrder → Prop
  | smallestElement => ∀ other ∈ d.undecided, element ≤ other
  | largestElement => ∀ other ∈ d.undecided, other ≤ element
  | _ => False

/-- What the order is to list: all values of an integer domain, each of them once, or one
undecided element of a set, first in and then out. -/
def Lists (order : ValueOrder) (var : VarId) : Domain → List Choice → Prop
  | .int d, choices => ∃ values : List Int, choices = values.map (.assign var) ∧
      values.Nodup ∧ (∀ value, value ∈ values ↔ value ∈ d) ∧ order.Places d values
  | .set d, choices => ∃ element, choices = [.takeIn var element, .leaveOut var element] ∧
      element ∈ d.undecided ∧ order.Picks d element

end ValueOrder

/-! ## What a choice keeps -/

namespace Choice

variable {s : Store} {choice : Choice}

def request : Choice → NarrowingRequest
  | assign var value => .restrict var value value
  | takeIn var element => .includeElement var element
  | leaveOut var element => .excludeElement var element

theorem run_request (choice : Choice) : choice.request.run = choice.operation := by
  cases choice <;> rfl

theorem var_request (choice : Choice) : choice.request.var = choice.var := by
  cases choice <;> rfl

/-- What remains of a domain admits the values that fit. -/
theorem admits_iff_of_selects {d e : Domain} (selects : choice.request.Selects d e)
    (kind : VarKind) (value : Value) :
    kind.Admits e value ↔ kind.Admits d value ∧ choice.Fits value := by
  cases choice with
  | assign var number =>
    cases d with
    | set d => exact selects.elim
    | int d =>
      cases e with
      | set e => exact selects.elim
      | int e =>
        have left (other : Int) : other ∈ e ↔ other ∈ d ∧ some other = some number := by
          rw [selects other, ← le_antisymm_iff, Option.some.injEq, eq_comm]
        cases kind <;> cases value
        case int.int other => exact left other
        case bool.bool other => exact left _
        all_goals exact iff_of_false id fun both => both.1
  | takeIn var element =>
    cases d with
    | int d => exact selects.elim
    | set d =>
      cases e with
      | int e => exact selects.elim
      | set e =>
        obtain ⟨lower, upper⟩ := selects
        cases kind <;> cases value
        case set.set elements =>
          constructor
          · rintro ⟨ascending, above, below⟩
            exact ⟨⟨ascending, fun other inside => above other ((lower other).2 (.inl inside)),
              upper ▸ below⟩, above element ((lower element).2 (.inr rfl))⟩
          · rintro ⟨⟨ascending, above, below⟩, inside⟩
            refine ⟨ascending, fun other member => ?_, upper ▸ below⟩
            rcases (lower other).1 member with member | rfl
            · exact above other member
            · exact inside
        all_goals exact iff_of_false id fun both => both.1
  | leaveOut var element =>
    cases d with
    | int d => exact selects.elim
    | set d =>
      cases e with
      | int e => exact selects.elim
      | set e =>
        obtain ⟨lower, upper⟩ := selects
        cases kind <;> cases value
        case set.set elements =>
          constructor
          · rintro ⟨ascending, above, below⟩
            exact ⟨⟨ascending, lower ▸ above, fun other inside =>
              ((upper other).1 (below other inside)).1⟩,
              fun inside => ((upper element).1 (below element inside)).2 rfl⟩
          · rintro ⟨⟨ascending, above, below⟩, outside⟩
            refine ⟨ascending, lower ▸ above, fun other inside =>
              (upper other).2 ⟨below other inside, ?_⟩⟩
            rintro rfl
            exact outside inside
        all_goals exact iff_of_false id fun both => both.1

/-- Committing an offered choice does to the table what its request does. -/
theorem exists_commit_eq (canonical : s.domains.Canonical) (offers : s.domains.Offers choice) :
    ∃ u, choice.request.run s.domains = .ok true u ∧
      (choice.commit s).2 = { s with domains := u } := by
  obtain ⟨u, run⟩ := offers.operation_eq_ok canonical
  refine ⟨u, by rw [run_request, run], ?_⟩
  rw [commit_eq_narrow, Store.narrow, run]

/-- After an offered choice the store allows the values that fit it. -/
theorem allows_commit_iff (canonical : s.domains.Canonical) (offers : s.domains.Offers choice)
    (value : Value) : (choice.commit s).2.Allows choice.var value ↔
      s.Allows choice.var value ∧ choice.Fits value := by
  obtain ⟨u, run, committed⟩ := exists_commit_eq canonical offers
  obtain ⟨d, e, here, there, selects⟩ := NarrowingRequest.selects_of_ok canonical run
  rw [var_request] at here there
  rw [committed]
  constructor
  · rintro ⟨v, e', declared, there', admits⟩
    obtain rfl := Option.some.inj (there.symm.trans there')
    obtain ⟨admits, fits⟩ := (admits_iff_of_selects selects v.kind value).1 admits
    exact ⟨⟨v, d, declared, here, admits⟩, fits⟩
  · rintro ⟨⟨v, d', declared, here', admits⟩, fits⟩
    obtain rfl := Option.some.inj (here.symm.trans here')
    exact ⟨v, e, declared, there, (admits_iff_of_selects selects v.kind value).2 ⟨admits, fits⟩⟩

/-- An offered choice touches its own variable alone. -/
theorem get?_commit_of_ne (canonical : s.domains.Canonical) (offers : s.domains.Offers choice)
    {other : VarId} (different : other ≠ choice.var) :
    (choice.commit s).2.domains.get? other = s.domains.get? other := by
  obtain ⟨u, run, committed⟩ := exists_commit_eq canonical offers
  rw [committed]
  exact NarrowingRequest.elsewhere_of_ok canonical run (var_request choice ▸ different)

end Choice

namespace Store

variable {s : Store} {var : VarId} {choices : List Choice}

/-- Choices split what the store allows if what fits them does. -/
theorem splits_of_fits (canonical : s.domains.Canonical)
    (about : ∀ choice ∈ choices, choice.var = var)
    (offers : ∀ choice ∈ choices, s.domains.Offers choice)
    (inhabited : ∀ choice ∈ choices, ∃ value, s.Allows var value ∧ choice.Fits value)
    (smaller : ∀ choice ∈ choices, ∃ value, s.Allows var value ∧ ¬ choice.Fits value)
    (disjoint : choices.Pairwise fun first second => ∀ value,
      first.Fits value → ¬ second.Fits value)
    (covers : ∀ value, s.Allows var value → ∃ choice ∈ choices, choice.Fits value) :
    s.Splits var choices := by
  have allows {choice : Choice} (member : choice ∈ choices) (value : Value) :
      (choice.commit s).2.Allows var value ↔ s.Allows var value ∧ choice.Fits value := by
    have := Choice.allows_commit_iff canonical (offers choice member) value
    rwa [about choice member] at this
  refine ⟨fun choice member => Choice.commit_of_offers (offers choice member) canonical,
    fun choice member => ?_, fun choice member => ?_, ?_, fun value => ⟨fun allowed => ?_, ?_⟩,
    fun choice member other different => ?_⟩
  · obtain ⟨value, both⟩ := inhabited choice member
    exact ⟨value, (allows member value).2 both⟩
  · obtain ⟨value, allowed, misfits⟩ := smaller choice member
    exact ⟨value, allowed, fun kept => misfits ((allows member value).1 kept).2⟩
  · refine disjoint.imp_of_mem fun first second apart value kept kept' => ?_
    exact apart value ((allows first value).1 kept).2 ((allows second value).1 kept').2
  · obtain ⟨choice, member, fits⟩ := covers value allowed
    exact ⟨choice, member, (allows member value).2 ⟨allowed, fits⟩⟩
  · rintro ⟨choice, member, kept⟩
    exact ((allows member value).1 kept).1
  · exact Choice.get?_commit_of_ne canonical (offers choice member)
      (about choice member ▸ different)

/-! ## The values of an integer domain -/

/-- What the store allows a variable with an integer domain are the values of the domain. -/
theorem exists_allows_of_mem {v : Variable} {d : IntDomain} {number : Int}
    (declared : s.declaration? var = some v) (here : s.domains.get? var = some (.int d))
    (suits : v.kind.Suits (.int d)) (inside : number ∈ d) :
    ∃ value, s.Allows var value ∧ value.asInt? = some number := by
  obtain ⟨name, kind⟩ := v
  cases kind with
  | set => exact suits.elim
  | int => exact ⟨.int number, ⟨_, _, declared, here, inside⟩, rfl⟩
  | bool =>
    rcases suits number inside with rfl | rfl
    · exact ⟨.bool false, ⟨_, _, declared, here, inside⟩, rfl⟩
    · exact ⟨.bool true, ⟨_, _, declared, here, inside⟩, rfl⟩

theorem exists_mem_of_allows {d : IntDomain} {value : Value}
    (here : s.domains.get? var = some (.int d)) (allowed : s.Allows var value) :
    ∃ number ∈ d, value.asInt? = some number := by
  obtain ⟨⟨name, kind⟩, d', -, here', admits⟩ := allowed
  obtain rfl := Option.some.inj (here.symm.trans here')
  cases kind <;> cases value
  case int.int number => exact ⟨number, admits, rfl⟩
  case bool.bool number => exact ⟨_, admits, rfl⟩
  all_goals exact admits.elim

theorem Formed.splits_values (formed : s.Formed) {d : IntDomain}
    (here : s.domains.get? var = some (.int d)) (undecided : d.isSingleton = false)
    {values : List Int} (perm : values.Perm d.values) :
    s.Splits var (values.map (.assign var)) := by
  obtain ⟨v, declared, suits⟩ := formed.declared here
  have canonical : d.Canonical := formed.canonical _ _ here
  have inside {choice : Choice} (member : choice ∈ values.map (.assign var)) :
      ∃ number ∈ d, choice = .assign var number := by
    obtain ⟨number, listed, rfl⟩ := List.mem_map.1 member
    exact ⟨number, IntDomain.mem_values.1 (perm.mem_iff.1 listed), rfl⟩
  refine splits_of_fits formed.canonical (fun choice member => ?_) (fun choice member => ?_)
    (fun choice member => ?_) (fun choice member => ?_) ?_ fun value allowed => ?_
  · obtain ⟨number, -, rfl⟩ := inside member
    rfl
  · obtain ⟨number, held, rfl⟩ := inside member
    exact ⟨d, DomainTable.int?_eq_some_iff.2 here, held, undecided⟩
  · obtain ⟨number, held, rfl⟩ := inside member
    exact exists_allows_of_mem declared here suits held
  · -- A domain that is not decided has another value.
    obtain ⟨number, held, rfl⟩ := inside member
    obtain ⟨other, held', different⟩ : ∃ other ∈ d, other ≠ number := by
      by_contra none
      have single : d.isSingleton = true := canonical.isSingleton_iff.2 ⟨number, fun other =>
        ⟨fun held => by_contra fun different => none ⟨other, held, different⟩,
          fun equal => equal ▸ held⟩⟩
      rw [undecided] at single
      cases single
    obtain ⟨value, allowed, reads⟩ := exists_allows_of_mem declared here suits held'
    exact ⟨value, allowed, fun fits => different (Option.some.inj (reads.symm.trans fits))⟩
  · rw [List.pairwise_map]
    refine (perm.nodup_iff.2 canonical.nodup_values).imp fun different value first second => ?_
    exact different (Option.some.inj (first.symm.trans second))
  · obtain ⟨number, held, reads⟩ := exists_mem_of_allows here allowed
    exact ⟨.assign var number,
      List.mem_map_of_mem (perm.mem_iff.2 (IntDomain.mem_values.2 held)), reads⟩

/-! ## One element of a set -/

theorem exists_elements_of_allows {d : SetDomain} {value : Value}
    (here : s.domains.get? var = some (.set d)) (allowed : s.Allows var value) :
    ∃ elements, value = .set elements := by
  obtain ⟨⟨name, kind⟩, d', -, here', admits⟩ := allowed
  obtain rfl := Option.some.inj (here.symm.trans here')
  cases kind <;> cases value
  case set.set elements => exact ⟨elements, rfl⟩
  all_goals exact admits.elim

theorem Formed.splits_element (formed : s.Formed) {d : SetDomain}
    (here : s.domains.get? var = some (.set d)) {element : Int}
    (undecided : element ∈ d.undecided) :
    s.Splits var [.takeIn var element, .leaveOut var element] := by
  obtain ⟨⟨name, kind⟩, declared, suits⟩ := formed.declared here
  obtain rfl : kind = .set := by cases kind <;> first | rfl | exact suits.elim
  have canonical : d.Canonical := formed.canonical _ _ here
  have offered : ∃ e, s.domains.set? var = some e ∧ element ∈ e.undecided :=
    ⟨d, DomainTable.set?_eq_some_iff.2 here, undecided⟩
  obtain ⟨possible, free⟩ := SetDomain.mem_undecided.1 undecided
  -- The lower bound leaves the element out, and with the element it takes it in.
  have without : s.Allows var (.set d.glb) :=
    ⟨_, _, declared, here, canonical.lower, fun _ inside => inside, canonical.nested⟩
  have including : s.Allows var (.set (Elements.insert element d.glb)) := by
    refine ⟨_, _, declared, here, canonical.lower.insert element,
      fun other inside => Elements.mem_insert.2 (.inr inside), fun other inside => ?_⟩
    rcases Elements.mem_insert.1 inside with rfl | inside
    · exact possible
    · exact canonical.nested other inside
  have taken : element ∈ Elements.insert element d.glb := Elements.mem_insert.2 (.inl rfl)
  refine splits_of_fits formed.canonical (fun choice member => ?_) (fun choice member => ?_)
    (fun choice member => ?_) (fun choice member => ?_) ?_ fun value allowed => ?_
  · rcases List.mem_pair.1 member with rfl | rfl <;> rfl
  · rcases List.mem_pair.1 member with rfl | rfl <;> exact offered
  · rcases List.mem_pair.1 member with rfl | rfl
    · exact ⟨_, including, taken⟩
    · exact ⟨_, without, free⟩
  · rcases List.mem_pair.1 member with rfl | rfl
    · exact ⟨_, without, free⟩
    · exact ⟨_, including, fun outside => outside taken⟩
  · rw [List.pairwise_pair]
    intro value inside outside
    cases value with
    | int | bool => exact inside.elim
    | set elements => exact outside inside
  · obtain ⟨elements, rfl⟩ := exists_elements_of_allows here allowed
    by_cases inside : element ∈ elements
    · exact ⟨.takeIn var element, by simp, inside⟩
    · exact ⟨.leaveOut var element, by simp, inside⟩

end Store

/-! ## How many candidates are reported -/

/-- Drawing candidates one after another gives those that are meant. -/
theorem Candidates.take_eq (number : Nat) (candidates : Candidates) :
    candidates.take number = candidates.toList.take number := by
  induction number generalizing candidates with
  | zero => rfl
  | succ number ih =>
    have meant := candidates.toList_of_next?
    unfold Candidates.take
    cases next : candidates.next? with
    | none =>
      rw [next] at meant
      simp [meant]
    | some pair =>
      obtain ⟨choice, rest⟩ := pair
      rw [next] at meant
      simp [meant, ih]

namespace ValueOrder

variable {order : ValueOrder} {s : Store} {var : VarId}

/-! ## What is listed, and in which order -/

theorem nearer_iff {target first second : Int} :
    IntDomain.nearer target first second = true ↔
      Precedes target first second ∨ first = second := by
  simp only [IntDomain.nearer, Precedes, Bool.or_eq_true, Bool.and_eq_true, decide_eq_true_eq]
  omega

/-- A value that is as good as another one is as good as all that the other one is as good as. -/
theorem nearer_trans {target first second third : Int}
    (left : IntDomain.nearer target first second = true)
    (right : IntDomain.nearer target second third = true) :
    IntDomain.nearer target first third = true := by
  simp only [nearer_iff, Precedes] at *
  omega

/-- Of two values one is as good as the other. -/
theorem nearer_total (target first second : Int) :
    IntDomain.nearer target first second = true ∨ IntDomain.nearer target second first = true := by
  simp only [nearer_iff, Precedes]
  omega

/-- Sorting by the distance from a target puts different values in strict order. -/
theorem pairwise_sortByDistance {target : Int} {values : List Int} (nodup : values.Nodup) :
    (sortByDistance target values).Pairwise (Precedes target) := by
  have sorted : (sortByDistance target values).Pairwise fun first second =>
      IntDomain.nearer target first second = true := by
    refine List.pairwise_mergeSort (fun first second third => ?_) (fun first second => ?_) values
    · exact nearer_trans
    · rw [Bool.or_eq_true]
      exact nearer_total target first second
  have different : (sortByDistance target values).Nodup :=
    (List.mergeSort_perm values _).nodup_iff.2 nodup
  refine (sorted.and different).imp fun both => ?_
  exact (nearer_iff.1 both.1).resolve_right both.2

/-- What an order lists for an integer domain, the order for the next decision aside. -/
theorem exists_placed_values {d : IntDomain} (canonical : d.Canonical)
    (suits : order.Suits (.int d)) (here : s.domains.get? var = some (.int d)) :
    ∃ values : List Int, (order.candidates s var).1.candidates.toList =
      values.map (.assign var) ∧ values.Perm d.values ∧ order.Places d values := by
  cases order with
  | ascending => exact ⟨d.values, toList_ascending here, .rfl, canonical.pairwise_values⟩
  | descending =>
    exact ⟨d.values.reverse, toList_descending here, d.values.reverse_perm,
      List.pairwise_reverse.2 canonical.pairwise_values⟩
  | middleOut =>
    by_cases filled : d.HasValue
    · obtain ⟨low, high, least, greatest⟩ := canonical.exists_bounds filled
      refine ⟨sortByDistance (Signed64.midpoint low high) d.values, ?_, List.mergeSort_perm _ _,
        fun low' high' least' greatest' => ?_⟩
      · simp only [candidates, here, least, greatest]
        rfl
      · obtain rfl := Option.some.inj (least.symm.trans least')
        obtain rfl := Option.some.inj (greatest.symm.trans greatest')
        rw [← Signed64.midpoint_eq_fdiv]
        exact pairwise_sortByDistance canonical.nodup_values
    · obtain ⟨values, listed, perm⟩ := exists_perm_values (s := s) suits here
      refine ⟨values, listed, perm, fun low high least => ?_⟩
      exact absurd ⟨low, (canonical.min?_eq_some_iff.1 least).1⟩ filled
  | random generator =>
    obtain ⟨values, listed, perm⟩ := exists_perm_values (s := s) suits here
    exact ⟨values, listed, perm, trivial⟩
  | smallestElement => exact suits.elim
  | largestElement => exact suits.elim

/-- What an order lists for an undecided set. -/
theorem exists_picked_element {d : SetDomain} (canonical : d.Canonical)
    (undecided : d.isSingleton = false) (suits : order.Suits (.set d))
    (here : s.domains.get? var = some (.set d)) :
    ∃ element, (order.candidates s var).1.candidates.toList =
      [.takeIn var element, .leaveOut var element] ∧ element ∈ d.undecided ∧
        order.Picks d element := by
  have some : d.undecided ≠ [] := fun none => by
    rw [canonical.isSingleton_iff_undecided.2 none] at undecided
    cases undecided
  have ascending : d.undecided.Pairwise (· < ·) := canonical.upper.filter _
  cases order with
  | smallestElement =>
    refine ⟨d.undecided.head some, ?_, List.head_mem some, fun other member => ?_⟩
    · simp only [candidates, here, List.head?_eq_some_head some]
      rfl
    · exact (ascending.imp le_of_lt).rel_head member
  | largestElement =>
    refine ⟨d.undecided.getLast some, ?_, List.getLast_mem some, fun other member => ?_⟩
    · simp only [candidates, here, List.getLast?_eq_some_getLast some]
      rfl
    · exact (ascending.imp le_of_lt).rel_getLast member
  | ascending => exact suits.elim
  | descending => exact suits.elim
  | middleOut => exact suits.elim
  | random generator => exact suits.elim

/-- Descending order is ascending order backwards. -/
theorem toList_descending_eq_reverse (s : Store) (var : VarId) :
    (descending.candidates s var).1.candidates.toList =
      (ascending.candidates s var).1.candidates.toList.reverse := by
  cases here : s.domains.get? var with
  | none =>
    simp only [candidates, here]
    rfl
  | some d =>
    cases d with
    | int d => rw [toList_descending here, toList_ascending here, List.map_reverse]
    | set d =>
      simp only [candidates, here]
      rfl

/-- The reported number of candidates is exact unless it cannot be reported. -/
theorem size_candidates {d : Domain} (suits : order.Suits d)
    (here : s.domains.get? var = some d)
    (few : (order.candidates s var).1.candidates.toList.length < Unsigned64.modulus) :
    (order.candidates s var).1.size = (order.candidates s var).1.candidates.toList.length := by
  cases d with
  | int d =>
    cases order with
    | ascending =>
      rw [toList_ascending here, List.length_map, IntDomain.length_values] at few ⊢
      simp only [candidates, here]
      exact IntDomain.size_eq_count few
    | descending =>
      rw [toList_descending here, List.length_map, List.length_reverse,
        IntDomain.length_values] at few ⊢
      simp only [candidates, here]
      exact IntDomain.size_eq_count few
    | middleOut =>
      simp only [candidates, here]
      split <;> rfl
    | random generator =>
      simp only [candidates, here]
      rfl
    | smallestElement => exact suits.elim
    | largestElement => exact suits.elim
  | set d =>
    have listed (e : Option Int) :
        (elementChoices var e).size = (elementChoices var e).candidates.toList.length := by
      cases e <;> rfl
    cases order with
    | smallestElement =>
      simp only [candidates, here]
      exact listed _
    | largestElement =>
      simp only [candidates, here]
      exact listed _
    | _ => exact suits.elim

/-- Where a variable can take every number of the range, the number of its values is more than
can be reported. -/
theorem size_candidates_of_full (formed : s.Formed) {d : Domain} (suits : order.Suits d)
    (here : s.domains.get? var = some d) (lazy : order = ascending ∨ order = descending)
    (full : ∀ value, Signed64.InRange value → s.domains.Holds var value) :
    (order.candidates s var).1.size = Unsigned64.greatest := by
  have size {d : IntDomain} (here : s.domains.get? var = some (.int d)) :
      d.size = Unsigned64.greatest := by
    have canonical : d.Canonical := formed.canonical _ _ here
    have found := DomainTable.int?_eq_some_iff.2 here
    exact canonical.size_of_full (formed.inRange_int? found) fun value inRange =>
      (DomainTable.holds_iff_of_int? found).1 (full value inRange)
  cases d with
  | int d =>
    rcases lazy with rfl | rfl
    · simp only [candidates, here]
      exact size here
    · simp only [candidates, here]
      exact size here
  | set d => rcases lazy with rfl | rfl <;> exact suits.elim

/-! ## Every order, in every store that can come about -/

/-- The order branches on a variable with a domain: its candidates split what the store allows the
variable, they are what is to be listed, drawing them one by one gives them in this order, and
their number is the one that is reported. -/
structure Branches (order : ValueOrder) (s : Store) (var : VarId) (d : Domain) : Prop where
  splits : s.Splits var (order.candidates s var).1.candidates.toList
  lists : order.Lists var d (order.candidates s var).1.candidates.toList
  drawn : ∀ number, (order.candidates s var).1.candidates.take number =
    (order.candidates s var).1.candidates.toList.take number
  size : (order.candidates s var).1.candidates.toList.length < Unsigned64.modulus →
    (order.candidates s var).1.size = (order.candidates s var).1.candidates.toList.length
  full : order = ascending ∨ order = descending →
    (∀ value, Signed64.InRange value → s.domains.Holds var value) →
    (order.candidates s var).1.size = Unsigned64.greatest

/-- Every order branches on every undecided variable whose domain it suits, and descending order
is ascending order backwards. -/
theorem branches_of_reachable (reached : s.Reachable) {d : Domain} (suits : order.Suits d)
    (here : s.domains.get? var = some d) (undecided : s.isSingleton var = false) :
    order.Branches s var d ∧
      (descending.candidates s var).1.candidates.toList =
        (ascending.candidates s var).1.candidates.toList.reverse := by
  have formed := reached.formed
  have open_ : d.isSingleton = false := by simpa [Store.isSingleton, here] using undecided
  refine ⟨?_, toList_descending_eq_reverse s var⟩
  have drawn := fun number => Candidates.take_eq number (order.candidates s var).1.candidates
  have size := size_candidates suits here
  have full := size_candidates_of_full formed suits here
  cases d with
  | int d =>
    have canonical : d.Canonical := formed.canonical _ _ here
    obtain ⟨values, listed, perm, places⟩ := exists_placed_values canonical suits here
    refine ⟨?_, ⟨values, listed, perm.nodup_iff.2 canonical.nodup_values,
      fun value => perm.mem_iff.trans IntDomain.mem_values, places⟩, drawn, size, full⟩
    rw [listed]
    exact formed.splits_values here open_ perm
  | set d =>
    have canonical : d.Canonical := formed.canonical _ _ here
    obtain ⟨element, listed, member, picks⟩ :=
      exists_picked_element canonical open_ suits here
    refine ⟨?_, ⟨element, listed, member, picks⟩, drawn, size, full⟩
    rw [listed]
    exact formed.splits_element here member

/-- A variable that can take every number of the range: the candidates split what it is allowed,
and one candidate too few is reported. -/
theorem branches_of_reachable_full :
    let s := StoreOperation.applyAll .empty [.declareInt "x" Signed64.least Signed64.greatest]
    s.Reachable ∧ s.isSingleton ⟨0⟩ = false ∧
      s.Splits ⟨0⟩ (ascending.candidates s ⟨0⟩).1.candidates.toList ∧
      (ascending.candidates s ⟨0⟩).1.size = Unsigned64.greatest ∧
      (ascending.candidates s ⟨0⟩).1.candidates.take 1 = [.assign ⟨0⟩ Signed64.least] := by
  intro s
  have reached : s.Reachable := Store.Reachable.empty.applyAll (by decide)
  have here : s.domains.get? ⟨0⟩ =
      some (.int (IntDomain.interval Signed64.least Signed64.greatest)) := by decide
  have undecided : s.isSingleton ⟨0⟩ = false := by decide
  have suits : ascending.Suits (.int (IntDomain.interval Signed64.least Signed64.greatest)) :=
    trivial
  obtain ⟨branches, -⟩ := branches_of_reachable reached suits here undecided
  refine ⟨reached, undecided, branches.splits, branches.full (.inl rfl) fun value inRange => ?_,
    by decide⟩
  exact ⟨_, DomainTable.int?_eq_some_iff.2 here, IntDomain.mem_interval.2 inRange⟩

end ValueOrder

end StagedSearch
