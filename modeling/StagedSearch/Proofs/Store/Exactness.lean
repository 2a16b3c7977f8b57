/-
# Narrowing is exact

Whether a narrowing request can be met (`NarrowingRequest.Possible`), and what it then leaves of
the domain of its variable (`NarrowingRequest.Selects`), is said of values and elements alone. On
every table that can come about, a request succeeds exactly if it can be met, leaves exactly what
it is to leave, and says exactly whether that is less than before. The domains of the other
variables stay as they are, also where the request fails.

A domain that was emptied stays in its table until the level around it is closed. So a table may
hold domains without a value: nothing is between any two bounds then, and there is nothing that a
removal could take.
-/

import StagedSearch.Proofs.Domain.History
import StagedSearch.Proofs.Store.Atomicity

namespace StagedSearch

namespace NarrowingRequest

/-- The table that the request leaves, whether it succeeds or fails. -/
def after (request : NarrowingRequest) (t : DomainTable) : DomainTable :=
  match request.run t with
  | .ok _ u => u
  | .error _ u => u

/-- The domain is one that the request can narrow, and something of it would remain. -/
def Possible : NarrowingRequest → Domain → Prop
  | restrict _ min max, .int d => ∃ value ∈ d, min ≤ value ∧ value ≤ max
  | remove _ value, .int d => ¬ ∀ other, other ∈ d ↔ other = value
  | includeElement _ element, .set d => element ∈ d.lub
  | excludeElement _ element, .set d => element ∉ d.glb
  | _, _ => False

/-- What is to remain of a domain when the request is met. -/
def Selects : NarrowingRequest → Domain → Domain → Prop
  | restrict _ min max, .int d, .int e =>
    ∀ value, value ∈ e ↔ value ∈ d ∧ min ≤ value ∧ value ≤ max
  | remove _ value, .int d, .int e => ∀ other, other ∈ e ↔ other ∈ d ∧ other ≠ value
  | includeElement _ element, .set d, .set e =>
    (∀ other, other ∈ e.glb ↔ other ∈ d.glb ∨ other = element) ∧ e.lub = d.lub
  | excludeElement _ element, .set d, .set e =>
    e.glb = d.glb ∧ ∀ other, other ∈ e.lub ↔ other ∈ d.lub ∧ other ≠ element
  | _, _, _ => False

/-- The request does to the table what it says. -/
structure Exact (request : NarrowingRequest) (t : DomainTable) : Prop where
  /-- It succeeds exactly if its variable has a domain of which something would remain. -/
  succeeds : (∃ changed u, request.run t = .ok changed u) ↔
    ∃ d, t.get? request.var = some d ∧ request.Possible d
  /-- If it succeeds, that is what remains, and the answer says whether the domain changed. -/
  selects : ∀ changed u, request.run t = .ok changed u →
    ∃ d e, t.get? request.var = some d ∧ u.get? request.var = some e ∧ request.Selects d e ∧
      (changed = true ↔ e ≠ d)
  /-- No other variable is touched. -/
  spares : ∀ other, other ≠ request.var → (request.after t).get? other = t.get? other

end NarrowingRequest

/-- The table can come about: as that of a store, by declaring, narrowing, and by opening and
closing levels. A narrowing that fails leaves its table to be used further. -/
inductive DomainTable.Reachable : DomainTable → Prop
  | ofStore {s : Store} (reached : s.Reachable) : Reachable s.domains
  | declareInt {t : DomainTable} (origin : IntDomain.Origin) (inRange : origin.InRange)
      (reached : Reachable t) : Reachable (t.push (.int origin.domain))
  | declareSet {t : DomainTable} {glb lub : List Int} {d : SetDomain}
      (ordered : SetDomain.ofBounds? glb lub = some d) (reached : Reachable t) :
      Reachable (t.push (.set d))
  | narrow {t : DomainTable} (request : NarrowingRequest) (reached : Reachable t) :
      Reachable (request.after t)
  | pushLevel {t : DomainTable} (reached : Reachable t) : Reachable t.pushLevel
  | popLevel {t : DomainTable} (reached : Reachable t) : Reachable t.popLevel

namespace NarrowingRequest

variable {request : NarrowingRequest} {t u : DomainTable} {changed : Bool}

/-! ## Tables that can come about -/

theorem breaks_after (request : NarrowingRequest) (canonical : t.Canonical) :
    t.Breaks (request.after t) := by
  have follows := request.carries t canonical
  unfold after
  cases run : request.run t with
  | ok changed u =>
    rw [run] at follows
    exact .narrowed follows.1
  | error e u =>
    rw [run] at follows
    exact follows

end NarrowingRequest

namespace DomainTable

/-- Every table that can come about belongs to declarations of its variables. -/
theorem Reachable.nested {t : DomainTable} (reached : t.Reachable) :
    ∃ declarations, t.Nested declarations ∧ t.size = declarations.size := by
  induction reached with
  | ofStore reached =>
    have formed := reached.formed
    exact ⟨_, formed.nested, formed.sizes⟩
  | declareInt origin inRange _ ih =>
    obtain ⟨declarations, nested, sizes⟩ := ih
    have suits : VarKind.int.Suits (.int origin.domain) := IntDomain.Origin.inRange_domain inRange
    exact ⟨_, nested.push sizes (v := ⟨"", .int⟩) origin.canonical_domain suits,
      by simp [size, DomainTable.push, ← sizes]⟩
  | declareSet ordered _ ih =>
    obtain ⟨declarations, nested, sizes⟩ := ih
    exact ⟨_, nested.push sizes (v := ⟨"", .set⟩) (SetDomain.Canonical.ofBounds? ordered) trivial,
      by simp [size, DomainTable.push, ← sizes]⟩
  | narrow request _ ih =>
    obtain ⟨declarations, nested, sizes⟩ := ih
    have breaks := request.breaks_after nested.fits.canonical
    exact ⟨declarations, breaks.nested nested, breaks.within.size_eq.trans sizes⟩
  | pushLevel _ ih =>
    obtain ⟨declarations, nested, sizes⟩ := ih
    exact ⟨declarations, nested.pushLevel, sizes⟩
  | popLevel _ ih =>
    obtain ⟨declarations, nested, sizes⟩ := ih
    exact ⟨declarations, nested.popLevel, (size_popLevel _).trans sizes⟩

theorem Reachable.canonical {t : DomainTable} (reached : t.Reachable) : t.Canonical := by
  obtain ⟨declarations, nested, -⟩ := reached.nested
  exact nested.fits.canonical

end DomainTable

namespace NarrowingRequest

variable {request : NarrowingRequest} {t u : DomainTable} {changed : Bool}

/-! ## What a success leaves -/

theorem elsewhere_of_ok (canonical : t.Canonical) (run : request.run t = .ok changed u)
    {other : VarId} (different : other ≠ request.var) : u.get? other = t.get? other := by
  cases request with
  | restrict var min max => exact Narrowing.restrict_elsewhere canonical run different
  | remove var value => exact Narrowing.remove_elsewhere run different
  | includeElement var element => exact Narrowing.includeElement_elsewhere run different
  | excludeElement var element => exact Narrowing.excludeElement_elsewhere run different

theorem selects_of_ok (canonical : t.Canonical) (run : request.run t = .ok changed u) :
    ∃ d e, t.get? request.var = some d ∧ u.get? request.var = some e ∧ request.Selects d e := by
  cases request with
  | restrict var min max =>
    obtain ⟨d, e, here, there, -, left⟩ := Narrowing.restrict_eq_ok canonical run
    exact ⟨_, _, DomainTable.int?_eq_some_iff.1 here, DomainTable.int?_eq_some_iff.1 there, left⟩
  | remove var value =>
    obtain ⟨d, e, here, there, left⟩ := Narrowing.remove_eq_ok canonical run
    exact ⟨_, _, DomainTable.int?_eq_some_iff.1 here, DomainTable.int?_eq_some_iff.1 there,
      fun other => (left other).trans and_comm⟩
  | includeElement var element =>
    obtain ⟨d, e, here, there, -, lower, upper⟩ := Narrowing.includeElement_eq_ok run
    exact ⟨_, _, DomainTable.set?_eq_some_iff.1 here, DomainTable.set?_eq_some_iff.1 there,
      fun other => (lower other).trans or_comm, upper⟩
  | excludeElement var element =>
    obtain ⟨d, e, here, there, -, upper, lower⟩ := Narrowing.excludeElement_eq_ok run
    exact ⟨_, _, DomainTable.set?_eq_some_iff.1 here, DomainTable.set?_eq_some_iff.1 there,
      lower, upper⟩

/-- A flag that is up comes with a lighter table, so the one domain that may have changed did. -/
theorem changed_iff_of_ok (canonical : t.Canonical) (run : request.run t = .ok changed u)
    {d e : Domain} (here : t.get? request.var = some d) (there : u.get? request.var = some e) :
    changed = true ↔ e ≠ d := by
  have follows := request.carries t canonical
  rw [run] at follows
  constructor
  · rintro up rfl
    have same : u.domains = t.domains := DomainTable.domains_eq_of_get? fun other => by
      by_cases own : other = request.var
      · rw [own, here, there]
      · exact elsewhere_of_ok canonical run own
    rcases follows.2.1 up with flag | lighter
    · cases flag
    · simp [DomainTable.weight, same] at lighter
  · intro different
    by_contra down
    obtain rfl := (follows.2.2 (Bool.eq_false_of_not_eq_true down)).2
    exact different (Option.some.inj (there.symm.trans here))

/-! ## When a request succeeds -/

theorem possible_of_ok (canonical : t.Canonical) (run : request.run t = .ok changed u) :
    ∃ d, t.get? request.var = some d ∧ request.Possible d := by
  have after := ((request.carries).narrows canonical run).canonical canonical
  cases request with
  | restrict var min max =>
    obtain ⟨d, e, here, -, ⟨value, inside⟩, left⟩ := Narrowing.restrict_eq_ok canonical run
    exact ⟨_, DomainTable.int?_eq_some_iff.1 here, value, (left value).1 inside⟩
  | remove var value =>
    obtain ⟨d, e, here, -, -⟩ := Narrowing.remove_eq_ok canonical run
    refine ⟨_, DomainTable.int?_eq_some_iff.1 here, fun only => ?_⟩
    -- The last value is the one that cannot be removed.
    have run : Narrowing.remove var value t = .ok changed u := run
    have decided : d.isSingleton = true :=
      (canonical.int? here).isSingleton_iff.2 ⟨value, only⟩
    have inside : value ∈ d := (only value).2 rfl
    rw [Narrowing.remove_apply here, if_neg (not_not.2 inside), if_pos decided] at run
    cases run
  | includeElement var element =>
    obtain ⟨d, e, here, there, inside, -, upper⟩ := Narrowing.includeElement_eq_ok run
    refine ⟨_, DomainTable.set?_eq_some_iff.1 here, ?_⟩
    show element ∈ d.lub
    exact upper ▸ (after.set? there).nested element inside
  | excludeElement var element =>
    obtain ⟨d, e, here, there, outside, -, lower⟩ := Narrowing.excludeElement_eq_ok run
    refine ⟨_, DomainTable.set?_eq_some_iff.1 here, fun inside => outside ?_⟩
    exact (after.set? there).nested element (lower ▸ inside)

theorem exists_ok_of_possible (canonical : t.Canonical) {d : Domain}
    (here : t.get? request.var = some d) (possible : request.Possible d) :
    ∃ changed u, request.run t = .ok changed u := by
  cases request with
  | restrict var min max =>
    cases d with
    | set d => exact possible.elim
    | int d =>
      obtain ⟨value, inside, low, high⟩ := possible
      exact Narrowing.exists_restrict_eq_ok canonical (DomainTable.int?_eq_some_iff.2 here) inside
        low high
  | remove var value =>
    cases d with
    | set d => exact possible.elim
    | int d =>
      have here := DomainTable.int?_eq_some_iff.2 here
      by_cases inside : value ∈ d
      · obtain ⟨other, member, different⟩ : ∃ other ∈ d, other ≠ value := by
          by_contra none
          refine possible fun other => ⟨fun member => ?_, ?_⟩
          · by_contra different
            exact none ⟨other, member, different⟩
          · rintro rfl
            exact inside
        exact Narrowing.exists_remove_eq_ok canonical here member different
      · exact ⟨false, t, (Narrowing.remove_apply here).trans (if_pos inside)⟩
  | includeElement var element =>
    cases d with
    | int d => exact possible.elim
    | set d =>
      exact Narrowing.exists_includeElement_eq_ok (DomainTable.set?_eq_some_iff.2 here) possible
  | excludeElement var element =>
    cases d with
    | int d => exact possible.elim
    | set d =>
      exact Narrowing.exists_excludeElement_eq_ok (DomainTable.set?_eq_some_iff.2 here) possible

/-! ## All requests, on all tables -/

theorem spares_after (canonical : t.Canonical) {other : VarId} (different : other ≠ request.var) :
    (request.after t).get? other = t.get? other := by
  unfold after
  cases run : request.run t with
  | ok changed u => exact elsewhere_of_ok canonical run different
  | error e u =>
    rcases table_of_failed canonical run with ⟨rfl, -⟩ | ⟨-, rfl⟩
    · rfl
    · exact DomainTable.get?_replace_of_ne different

/-- Every narrowing request, with whatever arguments, does what it says to every table that can
come about. -/
theorem exact_of_reachable (reached : t.Reachable) (request : NarrowingRequest) :
    request.Exact t := by
  have canonical := reached.canonical
  refine ⟨⟨?_, ?_⟩, ?_, fun other => spares_after canonical⟩
  · rintro ⟨changed, u, run⟩
    exact possible_of_ok canonical run
  · rintro ⟨d, here, possible⟩
    exact exists_ok_of_possible canonical here possible
  · intro changed u run
    obtain ⟨d, e, here, there, selects⟩ := selects_of_ok canonical run
    exact ⟨d, e, here, there, selects, changed_iff_of_ok canonical run here there⟩

/-- A domain that reaches to both ends of the range and has a hole: the bounds may be reversed or
lie in the hole, and then nothing of it would remain; the greatest value can be removed. -/
theorem exact_of_reachable_ends :
    let t := Store.empty.domains.push
      (.int (IntDomain.ofValues [Signed64.least, 1, 5, Signed64.greatest]))
    t.Reachable ∧ (restrict ⟨0⟩ 5 1).Exact t ∧
      (¬ ∃ changed u, (restrict ⟨0⟩ 2 4).run t = .ok changed u) ∧
      ∃ u, (remove ⟨0⟩ Signed64.greatest).run t = .ok true u := by
  intro t
  have inRange : IntDomain.Origin.InRange
      (.ofValues [Signed64.least, 1, 5, Signed64.greatest]) := by
    show ∀ value ∈ [Signed64.least, 1, 5, Signed64.greatest], Signed64.InRange value
    decide
  have reached : t.Reachable := .declareInt _ inRange (.ofStore .empty)
  refine ⟨reached, exact_of_reachable reached _, ?_, ?_⟩
  · rw [(exact_of_reachable reached (restrict ⟨0⟩ 2 4)).succeeds]
    rintro ⟨d, here, possible⟩
    cases here
    obtain ⟨value, inside, low, high⟩ := possible
    have listed := IntDomain.mem_ofValues.1 inside
    simp only [List.mem_cons, List.not_mem_nil, or_false] at listed
    rcases listed with rfl | rfl | rfl | rfl
    all_goals
      revert low high
      decide
  · exact ⟨_, rfl⟩

end NarrowingRequest

end StagedSearch
