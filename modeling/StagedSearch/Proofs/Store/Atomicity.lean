/-
# What a failed narrowing leaves

A request that narrows one variable fails in one of two ways. Either it finds out before it
touches the domain, and then the table is as it was. Or it restricts a domain to bounds that
meet the domain's own bounds but hit a hole between its values: then it finds out afterwards,
and the domain stays empty (`NarrowingRequest.table_of_failed`). Removing a value, and putting
an element in or out of a set, always find out before.

For a store this concerns `assign` alone, because the lower bound of `restrictMax` is the least
number. So what empties a domain of a store is an assignment that hits a hole, or a propagation
that fails; and without an open level nothing brings the domain back.
-/

import StagedSearch.Proofs.Store.Extension
import StagedSearch.Proofs.Store.Restoration

namespace StagedSearch

/-- The bounds meet those of the variable's domain, but no value of the domain is between
them. -/
structure DomainTable.Misses (t : DomainTable) (var : VarId) (min max : Int) : Prop where
  meets : ∃ low high, t.Spans var low high ∧ min ≤ high ∧ low ≤ max
  hole : ∀ value, t.Holds var value → value < min ∨ max < value

/-- An operation that narrows one variable, with its arguments. -/
inductive NarrowingRequest where
  | restrict (var : VarId) (min max : Int)
  | remove (var : VarId) (value : Int)
  | includeElement (var : VarId) (element : Int)
  | excludeElement (var : VarId) (element : Int)
deriving DecidableEq

namespace NarrowingRequest

def var : NarrowingRequest → VarId
  | restrict var _ _ | remove var _ | includeElement var _ | excludeElement var _ => var

def run : NarrowingRequest → Narrowing Bool
  | restrict var min max => Narrowing.restrict var min max
  | remove var value => Narrowing.remove var value
  | includeElement var element => Narrowing.includeElement var element
  | excludeElement var element => Narrowing.excludeElement var element

def HitsHole (t : DomainTable) : NarrowingRequest → Prop
  | restrict var min max => t.Misses var min max
  | _ => False

variable {request : NarrowingRequest} {t u : DomainTable} {e : Inconsistency}

theorem carries (request : NarrowingRequest) : Narrowing.Carries false request.run := by
  cases request with
  | restrict var min max => exact Narrowing.carries_restrict var min max
  | remove var value => exact Narrowing.carries_remove var value
  | includeElement var element => exact Narrowing.carries_includeElement var element
  | excludeElement var element => exact Narrowing.carries_excludeElement var element

/-! ## Each of the four operations -/

theorem restrict_of_failed {var : VarId} {min max : Int} (canonical : t.Canonical)
    (failed : Narrowing.restrict var min max t = .error e u) :
    u = t ∧ ¬ t.Misses var min max ∨
      t.Misses var min max ∧ u = t.replace var (.int IntDomain.empty) := by
  by_cases some : ∃ d, t.int? var = some d ∧ d.HasValue
  · obtain ⟨d, here, filled⟩ := some
    have formed := canonical.int? here
    obtain ⟨low, high, least, greatest⟩ := formed.exists_bounds filled
    rw [Narrowing.restrict_apply here least greatest] at failed
    split at failed
    · cases failed
    split at failed
    · rename_i outside
      cases failed
      refine .inl ⟨rfl, ?_⟩
      rintro ⟨⟨low', high', ⟨d', here', least', greatest'⟩, left, right⟩, -⟩
      obtain rfl := Option.some.inj (here.symm.trans here')
      obtain rfl := Option.some.inj (least.symm.trans least')
      obtain rfl := Option.some.inj (greatest.symm.trans greatest')
      omega
    rename_i meets
    split at failed
    · rename_i emptied
      have nothing : (d.restrict min max).1 = IntDomain.empty :=
        congrArg IntDomain.mk (IntDomain.isEmpty_iff.1 emptied)
      cases failed
      refine .inr ⟨⟨⟨low, high, ⟨d, here, least, greatest⟩, by omega, by omega⟩, ?_⟩, ?_⟩
      · rintro value ⟨d', here', inside⟩
        obtain rfl := Option.some.inj (here.symm.trans here')
        by_contra between
        have member : value ∈ (d.restrict min max).1 :=
          IntDomain.mem_restrict.2 ⟨inside, by omega, by omega⟩
        rw [nothing] at member
        simp [IntDomain.empty] at member
      · rw [nothing]
    · cases failed
  · rw [Narrowing.restrict_of_not_hasValue fun d here =>
      ⟨canonical.int? here, fun filled => some ⟨d, here, filled⟩⟩] at failed
    cases failed
    refine .inl ⟨rfl, ?_⟩
    rintro ⟨⟨low, high, ⟨d, here, least, -⟩, -⟩, -⟩
    exact some ⟨d, here, low, ((canonical.int? here).min?_eq_some_iff.1 least).1⟩

/-- An operation that looks first and then either fails or succeeds leaves the table as it was
where it fails. -/
theorem eq_of_looked {p q : Prop} [Decidable p] [Decidable q] {first second : Bool}
    {w : DomainTable}
    (failed : (if p then .ok first t else if q then .error .inconsistent t else .ok second w :
      EStateM.Result Inconsistency DomainTable Bool) = .error e u) : u = t := by
  split at failed
  · cases failed
  split at failed
  · cases failed
    rfl
  · cases failed

theorem remove_of_failed {var : VarId} {value : Int}
    (failed : Narrowing.remove var value t = .error e u) : u = t := by
  cases here : t.int? var with
  | none =>
    rw [Narrowing.remove_of_none here] at failed
    cases failed
    rfl
  | some d =>
    rw [Narrowing.remove_apply here] at failed
    exact eq_of_looked failed

theorem includeElement_of_failed {var : VarId} {element : Int}
    (failed : Narrowing.includeElement var element t = .error e u) : u = t := by
  cases here : t.set? var with
  | none =>
    rw [Narrowing.includeElement_of_none here] at failed
    cases failed
    rfl
  | some d =>
    rw [Narrowing.includeElement_apply here] at failed
    exact eq_of_looked failed

theorem excludeElement_of_failed {var : VarId} {element : Int}
    (failed : Narrowing.excludeElement var element t = .error e u) : u = t := by
  cases here : t.set? var with
  | none =>
    rw [Narrowing.excludeElement_of_none here] at failed
    cases failed
    rfl
  | some d =>
    rw [Narrowing.excludeElement_apply here] at failed
    exact eq_of_looked failed

/-- A request that fails leaves the table as it was, unless it hits a hole: then the domain of
its variable is empty, and the other domains are as they were. -/
theorem table_of_failed (canonical : t.Canonical) (failed : request.run t = .error e u) :
    u = t ∧ ¬ request.HitsHole t ∨
      request.HitsHole t ∧ u = t.replace request.var (.int IntDomain.empty) := by
  cases request with
  | restrict var min max => exact restrict_of_failed canonical failed
  | remove var value => exact .inl ⟨remove_of_failed failed, id⟩
  | includeElement var element => exact .inl ⟨includeElement_of_failed failed, id⟩
  | excludeElement var element => exact .inl ⟨excludeElement_of_failed failed, id⟩

/-- A domain that was emptied is not what it was: its bounds were values. -/
theorem replace_ne_of_hitsHole (canonical : t.Canonical) (hits : request.HitsHole t) :
    (t.replace request.var (.int IntDomain.empty)).get? request.var ≠ t.get? request.var := by
  cases request with
  | restrict var min max =>
    obtain ⟨⟨low, high, ⟨d, here, least, -⟩, -⟩, -⟩ := hits
    have inside := ((canonical.int? here).min?_eq_some_iff.1 least).1
    have emptied := DomainTable.int?_eq_some_iff.1
      (Narrowing.int?_replace_self (e := IntDomain.empty) here)
    intro same
    have equal := emptied.symm.trans (same.trans (DomainTable.int?_eq_some_iff.1 here))
    cases equal
    simp [IntDomain.empty] at inside
  | remove | includeElement | excludeElement => exact hits.elim

/-- A request that fails is undone exactly if it does not hit a hole. -/
theorem eq_iff_of_failed (canonical : t.Canonical) (failed : request.run t = .error e u) :
    u = t ↔ ¬ request.HitsHole t := by
  rcases table_of_failed canonical failed with ⟨same, spares⟩ | ⟨hits, rfl⟩
  · exact iff_of_true same spares
  · refine iff_of_false (fun same => replace_ne_of_hitsHole canonical hits ?_) (not_not.2 hits)
    rw [same]

end NarrowingRequest

namespace StoreOperation

/-- What a request to a store asks of the table, if it narrows one variable. -/
def narrows? : StoreOperation → Option NarrowingRequest
  | assign var value => some (.restrict var value value)
  | removeValue var value => some (.remove var value)
  | restrictMax var max => some (.restrict var Signed64.least max)
  | includeElement var element => some (.includeElement var element)
  | excludeElement var element => some (.excludeElement var element)
  | _ => none

def HitsHole (s : Store) : StoreOperation → Prop
  | assign var value => s.domains.Misses var value value
  | _ => False

/-- The request is one of the two that may leave a domain empty: an assignment that hits a
hole, or a propagation that fails. -/
def Empties (s : Store) (operation : StoreOperation) : Prop :=
  operation.HitsHole s ∨ operation = consistency ∧ s.consistency.1 = false

theorem apply_of_narrows? {s : Store} {operation : StoreOperation} {request : NarrowingRequest}
    (narrows : operation.narrows? = some request) :
    operation.apply s = (s.narrow request.run).2 := by
  cases operation <;> cases narrows <;> rfl

end StoreOperation

namespace Store

variable {s : Store} {operation : StoreOperation} {request : NarrowingRequest}

/-- No domain begins below the least number, so lowering an upper bound hits no hole. -/
theorem Formed.not_misses_least (formed : s.Formed) {var : VarId} {max : Int} :
    ¬ s.domains.Misses var Signed64.least max := by
  rintro ⟨⟨low, high, ⟨d, here, least, -⟩, -, meets⟩, hole⟩
  have inside := ((formed.canonical.int? here).min?_eq_some_iff.1 least).1
  have inRange : Signed64.InRange low := formed.sound.inRange var low ⟨d, here, inside⟩
  have := inRange.1
  have := hole low ⟨d, here, inside⟩
  omega

theorem Formed.hitsHole_iff (formed : s.Formed) (narrows : operation.narrows? = some request) :
    request.HitsHole s.domains ↔ operation.HitsHole s := by
  cases operation with
  | restrictMax var max =>
    cases narrows
    exact iff_of_false formed.not_misses_least id
  | _ => cases narrows <;> rfl

/-- What a request that fails leaves of a store. -/
theorem Formed.apply_of_failed (formed : s.Formed) (narrows : operation.narrows? = some request)
    (failed : (s.narrow request.run).1 = .error .inconsistent) :
    operation.apply s = s ↔ ¬ operation.HitsHole s := by
  rw [← formed.hitsHole_iff narrows, StoreOperation.apply_of_narrows? narrows]
  unfold Store.narrow at failed ⊢
  cases run : request.run s.domains with
  | ok changed u =>
    rw [run] at failed
    cases failed
  | error e u =>
    rw [← NarrowingRequest.eq_iff_of_failed formed.canonical run]
    exact ⟨congrArg Store.domains, fun same => by rw [same]⟩

/-! ## No domain is empty unless one was emptied -/

/-- A narrowing request that empties nothing leaves every domain with a value, whether it fails
or not. -/
theorem Formed.filled_of_narrows (formed : s.Formed) (filled : s.domains.Filled)
    (narrows : operation.narrows? = some request) (spares : ¬ operation.HitsHole s) :
    (operation.apply s).domains.Filled := by
  rw [StoreOperation.apply_of_narrows? narrows]
  unfold Store.narrow
  cases run : request.run s.domains with
  | ok changed u => exact (request.carries.narrows formed.canonical run).filled filled
  | error e u =>
    have same := (NarrowingRequest.eq_iff_of_failed formed.canonical run).2
      (mt (formed.hitsHole_iff narrows).1 spares)
    exact same ▸ filled

theorem Formed.filled_of_consistency (formed : s.Formed) (filled : s.domains.Filled)
    (consistent : s.consistency.1 = true) : s.consistency.2.domains.Filled := by
  unfold Store.consistency at consistent ⊢
  cases run : s.domains.propagateAll (s.constraints.map Imposed.constraint) with
  | mk flag u =>
    rw [run] at consistent
    obtain rfl : flag = true := consistent
    exact (DomainTable.narrows_of_propagateAll formed.canonical run).1.filled filled

/-- A request that neither moves between levels nor empties a domain leaves every domain with a
value. -/
theorem Formed.filled_apply (formed : s.Formed) (filled : s.domains.Filled)
    (stays : operation.movesLevel = false) (spares : ¬ operation.Empties s) :
    (operation.apply s).domains.Filled := by
  obtain ⟨spared, consistent⟩ := not_or.1 spares
  cases operation with
  | declareInt name min max =>
    simp only [StoreOperation.apply, declareInt]
    split
    · exact filled
    · rename_i ordered
      exact filled.push ⟨min, IntDomain.mem_interval.2 ⟨le_rfl, not_lt.1 ordered⟩⟩
  | declareValues name values =>
    simp only [StoreOperation.apply, declareValues]
    split
    · exact filled
    · rename_i nonempty
      exact filled.push ((IntDomain.canonical_ofValues values).isEmpty_eq_false_iff.1
        (Bool.eq_false_of_not_eq_true nonempty))
  | declareBool name =>
    exact filled.push ⟨0, IntDomain.mem_interval.2 ⟨le_rfl, zero_le_one⟩⟩
  | declareSet name glb lub =>
    simp only [StoreOperation.apply, declareSet]
    cases SetDomain.ofBounds? glb lub with
    | none => exact filled
    | some d => exact filled.push trivial
  | impose c =>
    simp only [StoreOperation.apply]
    cases imposed : s.impose c with
    | error e => exact filled
    | ok s' => exact eq_addConstraint_of_impose imposed ▸ filled
  | consistency =>
    exact formed.filled_of_consistency filled (by simpa using consistent)
  | pushLevel | popLevel => cases stays
  | _ => exact formed.filled_of_narrows filled rfl spared

theorem Formed.everyLevel_filled_apply (formed : s.Formed)
    (filled : s.domains.EveryLevel DomainTable.Filled) (spares : ¬ operation.Empties s) :
    (operation.apply s).domains.EveryLevel DomainTable.Filled := by
  cases stays : operation.movesLevel with
  | true =>
    cases operation with
    | pushLevel => exact filled.pushLevel filled.here
    | popLevel => exact filled.popLevel
    | _ => cases stays
  | false =>
    have here := formed.filled_apply filled.here stays spares
    rcases formed.apply_cases stays with
      ⟨-, t, breaks, applied⟩ | ⟨-, c, applied⟩ | ⟨v, d, -, applied⟩
    · rw [applied] at here ⊢
      exact filled.of_breaks formed.nested breaks here
    · rw [applied]
      exact filled
    · rw [applied] at here ⊢
      exact filled.push formed.nested fun u full => full.push
        (here _ d ((get?_declare formed.sizes ⟨s.size⟩).trans (if_pos rfl)))

/-- In a run in which no request empties a domain, every domain has a value, at every level. -/
theorem Formed.everyLevel_filled_applyAll (formed : s.Formed)
    (filled : s.domains.EveryLevel DomainTable.Filled) {operations : List StoreOperation}
    (inRange : ∀ operation ∈ operations, operation.InRange)
    (spares : ∀ first operation, first ++ [operation] <+: operations →
      ¬ operation.Empties (StoreOperation.applyAll s first)) :
    (StoreOperation.applyAll s operations).domains.EveryLevel DomainTable.Filled := by
  induction operations generalizing s with
  | nil => exact filled
  | cons operation rest ih =>
    obtain ⟨first, later⟩ := List.forall_mem_cons.1 inRange
    apply ih (formed.apply first)
      (formed.everyLevel_filled_apply filled (spares [] operation ⟨rest, rfl⟩)) later
    rintro before next ⟨behind, rfl⟩
    exact spares (operation :: before) next ⟨behind, rfl⟩

/-! ## Whatever operations reach -/

/-- A narrowing that fails is undone exactly if it does not hit a hole: on every table that
narrowing comes to from that of a reachable store, and so for a reachable store itself, where
only an assignment can hit one. Unless a request of the run empties a domain, no domain of the
store that it reaches is empty. -/
theorem atomic_of_applyAll (operations : List StoreOperation)
    (inRange : ∀ operation ∈ operations, operation.InRange) :
    (∀ t u (request : NarrowingRequest),
      (StoreOperation.applyAll empty operations).domains.Breaks t →
      request.run t = .error .inconsistent u →
        (u = t ↔ ¬ request.HitsHole t) ∧
        (request.HitsHole t → u = t.replace request.var (.int IntDomain.empty))) ∧
    (∀ (operation : StoreOperation) (request : NarrowingRequest),
      operation.narrows? = some request →
      ((StoreOperation.applyAll empty operations).narrow request.run).1 = .error .inconsistent →
        (operation.apply (StoreOperation.applyAll empty operations) =
            StoreOperation.applyAll empty operations ↔
          ¬ operation.HitsHole (StoreOperation.applyAll empty operations))) ∧
    ((∀ first operation, first ++ [operation] <+: operations →
        ¬ operation.Empties (StoreOperation.applyAll empty first)) →
      ∀ var d, (StoreOperation.applyAll empty operations).domains.int? var = some d →
        d.HasValue) := by
  have formed := formed_empty.applyAll inRange
  refine ⟨fun t u request breaks failed => ?_, fun operation request narrows failed =>
    formed.apply_of_failed narrows failed, fun spares var d here => ?_⟩
  · have canonical := (breaks.nested formed.nested).fits.canonical
    refine ⟨NarrowingRequest.eq_iff_of_failed canonical failed, fun hits => ?_⟩
    rcases NarrowingRequest.table_of_failed canonical failed with ⟨-, spares⟩ | ⟨-, emptied⟩
    · exact absurd hits spares
    · exact emptied
  · have nothing : empty.domains.Filled := by
      simp [DomainTable.Filled, empty, DomainTable.empty, DomainTable.get?]
    have filled := formed_empty.everyLevel_filled_applyAll (.of_trail_nil nothing rfl) inRange
      spares
    exact filled.here.int? here

/-- A domain with a hole: the removal and the assignment that fail beside it are undone, the
assignment of a value in the hole is not. -/
theorem atomic_of_applyAll_hole :
    let s := StoreOperation.applyAll empty
      [.declareValues "x" [1, 5], .pushLevel, .declareInt "y" 0 3, .assign ⟨1⟩ 2]
    (StoreOperation.removeValue ⟨1⟩ 2).apply s = s ∧ (StoreOperation.assign ⟨0⟩ 7).apply s = s ∧
      (StoreOperation.assign ⟨0⟩ 3).apply s ≠ s := by
  intro s
  obtain ⟨-, undone, -⟩ := atomic_of_applyAll
    [.declareValues "x" [1, 5], .pushLevel, .declareInt "y" 0 3, .assign ⟨1⟩ 2] (by decide)
  have spans {low high : Int} (spans : s.domains.Spans ⟨0⟩ low high) : low = 1 ∧ high = 5 := by
    obtain ⟨d, here, least, greatest⟩ := spans
    cases here
    exact ⟨(Option.some.inj least).symm, (Option.some.inj greatest).symm⟩
  refine ⟨(undone _ _ rfl rfl).2 id, (undone (.assign ⟨0⟩ 7) _ rfl rfl).2 ?_, fun same =>
    (undone (.assign ⟨0⟩ 3) _ rfl rfl).1 same ?_⟩
  · rintro ⟨⟨low, high, ends, left, -⟩, -⟩
    obtain ⟨-, rfl⟩ := spans ends
    omega
  · refine ⟨⟨1, 5, ⟨.ofValues [1, 5], rfl, rfl, rfl⟩, by decide, by decide⟩, ?_⟩
    rintro value ⟨d, here, inside⟩
    cases here
    have member : value = 1 ∨ value = 5 := by
      simpa using IntDomain.mem_ofValues.1 inside
    omega

/-- Outside of all levels, a value in a hole is assigned. The assignment fails, and the domain
that it leaves is empty. -/
theorem exists_emptied :
    (¬ ∀ (s s' : Store) (var : VarId) (value : Int), s.Reachable → Signed64.InRange value →
        s.assign var value = (.error .inconsistent, s') →
        s'.domains.domains = s.domains.domains) ∧
      ¬ ∀ (s : Store) (var : VarId) (d : IntDomain), s.Reachable → s.level = 0 →
        s.domains.int? var = some d → d.HasValue := by
  let s := StoreOperation.applyAll empty [.declareValues "x" [1, 5]]
  have reached : s.Reachable := Reachable.empty.applyAll (by decide)
  have inRange : (StoreOperation.assign ⟨0⟩ 3).InRange := by decide
  constructor
  · intro always
    have same := always s _ ⟨0⟩ 3 reached inRange rfl
    revert same
    decide
  · intro always
    obtain ⟨value, inside⟩ := always _ ⟨0⟩ .empty (reached.step inRange) rfl rfl
    cases inside

end Store

end StagedSearch
