/-
# What a closed level leaves behind

A level is opened, any requests follow that close each further level they open, and the level is
closed. Then the store is the former one with the variables that were declared in between, each
with the domain that its declaration gave it (`popLevel_applyAll_pushLevel`). This covers requests
that fail after they have changed something, constraints that were imposed inside, and levels
that are opened again.

A request that stays on its level either narrows the table, or adds a constraint, or declares a
variable (`Formed.apply_cases`). Each of the three commutes with closing the level, except that
the narrowing and the constraint are gone; the rest is an induction on balanced sequences.
-/

import StagedSearch.Proofs.Store.Reachable

namespace StagedSearch

namespace StoreOperation

/-- The variable that a request declares and its domain. A declaration that is refused declares
nothing. -/
def declaration? : StoreOperation → Option (Variable × Domain)
  | declareInt name min max =>
    if max < min then none else some (⟨name, .int⟩, .int (IntDomain.interval min max))
  | declareValues name values =>
    if (IntDomain.ofValues values).isEmpty then none
    else some (⟨name, .int⟩, .int (IntDomain.ofValues values))
  | declareBool name => some (⟨name, .bool⟩, .int (IntDomain.interval 0 1))
  | declareSet name glb lub =>
    (SetDomain.ofBounds? glb lub).map fun domain => (⟨name, .set⟩, .set domain)
  | _ => none

end StoreOperation

namespace Store

def declareAll (s : Store) (declared : List (Variable × Domain)) : Store :=
  declared.foldl (fun s (v, domain) => (s.declare v.name v.kind domain).2) s

variable {s : Store} {declared : List (Variable × Domain)}

@[simp]
theorem declareAll_nil (s : Store) : s.declareAll [] = s := rfl

@[simp]
theorem declareAll_cons (s : Store) (v : Variable) (d : Domain)
    (rest : List (Variable × Domain)) :
    s.declareAll ((v, d) :: rest) = (s.declare v.name v.kind d).2.declareAll rest := rfl

theorem declareAll_append (s : Store) (first later : List (Variable × Domain)) :
    s.declareAll (first ++ later) = (s.declareAll first).declareAll later :=
  List.foldl_append

/-- Declaring adds to the ends of the tables and changes nothing else. -/
theorem declareAll_eq (s : Store) (declared : List (Variable × Domain)) :
    s.declareAll declared =
      { declarations := s.declarations ++ (declared.map Prod.fst).toArray
        domains :=
          { domains := s.domains.domains ++ (declared.map Prod.snd).toArray
            savedAt := s.domains.savedAt ++ Array.replicate declared.length none
            trail := s.domains.trail }
        constraints := s.constraints } := by
  induction declared generalizing s with
  | nil => simp
  | cons first rest ih =>
    obtain ⟨v, d⟩ := first
    rw [declareAll_cons, ih]
    simp [declare, DomainTable.push, Array.replicate_succ']

/-! ## Closing a level after one request -/

/-- A constraint that is imposed is added at the end. -/
theorem eq_addConstraint_of_impose {c : Constraint} {s' : Store} (imposed : s.impose c = .ok s') :
    s' = s.addConstraint c := by
  unfold Store.impose at imposed
  split at imposed
  · cases imposed
  · exact (Except.ok.inj imposed).symm

/-- Whatever a request does without opening or closing a level is one of three things. -/
theorem Formed.apply_cases (formed : s.Formed) {operation : StoreOperation}
    (stays : operation.movesLevel = false) :
    (operation.declaration? = none ∧
      ∃ t, s.domains.Breaks t ∧ operation.apply s = { s with domains := t }) ∨
    (operation.declaration? = none ∧ ∃ c, operation.apply s = s.addConstraint c) ∨
    ∃ v d, operation.declaration? = some (v, d) ∧
      operation.apply s = (s.declare v.name v.kind d).2 := by
  have unchanged : ∃ t, s.domains.Breaks t ∧ s = { s with domains := t } :=
    ⟨s.domains, .narrowed (.refl _), rfl⟩
  have narrowed {narrowing : Narrowing Bool} (carries : Narrowing.Carries false narrowing) :=
    exists_breaks_of_narrow formed.canonical carries
  cases operation with
  | declareInt name min max =>
    simp only [StoreOperation.apply, StoreOperation.declaration?, declareInt]
    split
    · exact .inl ⟨rfl, unchanged⟩
    · exact .inr (.inr ⟨_, _, rfl, rfl⟩)
  | declareValues name values =>
    simp only [StoreOperation.apply, StoreOperation.declaration?, declareValues]
    split
    · exact .inl ⟨rfl, unchanged⟩
    · exact .inr (.inr ⟨_, _, rfl, rfl⟩)
  | declareBool name => exact .inr (.inr ⟨_, _, rfl, rfl⟩)
  | declareSet name glb lub =>
    simp only [StoreOperation.apply, StoreOperation.declaration?, declareSet]
    cases SetDomain.ofBounds? glb lub with
    | none => exact .inl ⟨rfl, unchanged⟩
    | some d => exact .inr (.inr ⟨_, _, rfl, rfl⟩)
  | impose c =>
    simp only [StoreOperation.apply]
    cases imposed : s.impose c with
    | error e => exact .inl ⟨rfl, unchanged⟩
    | ok s' => exact .inr (.inl ⟨rfl, c, eq_addConstraint_of_impose imposed⟩)
  | assign var value => exact .inl ⟨rfl, narrowed (Narrowing.carries_restrict var value value)⟩
  | removeValue var value => exact .inl ⟨rfl, narrowed (Narrowing.carries_remove var value)⟩
  | restrictMax var max => exact .inl ⟨rfl, narrowed (Narrowing.carries_restrict var _ max)⟩
  | includeElement var e => exact .inl ⟨rfl, narrowed (Narrowing.carries_includeElement var e)⟩
  | excludeElement var e => exact .inl ⟨rfl, narrowed (Narrowing.carries_excludeElement var e)⟩
  | consistency => exact .inl ⟨rfl, exists_breaks_of_consistency formed.canonical⟩
  | pushLevel => cases stays
  | popLevel => cases stays

/-- Opening a level and closing it at once changes nothing. -/
theorem Formed.popLevel_pushLevel (formed : s.Formed) : s.pushLevel.popLevel = s :=
  formed.popLevel_of_breaks (.narrowed (.refl _))

/-- Inside a level there is a frame, and the level is above the one outside. -/
theorem level_popLevel (opened : s.domains.trail ≠ []) : s.popLevel.level + 1 = s.level := by
  obtain ⟨entries, outer, open_⟩ := List.exists_cons_of_ne_nil opened
  have kept (entries : List TrailEntry) (t : DomainTable) :
      (entries.foldl DomainTable.restore t).trail = t.trail := by
    induction entries generalizing t with
    | nil => rfl
    | cons entry rest ih => rw [List.foldl_cons, ih]; rfl
  show s.domains.popLevel.trail.length + 1 = s.domains.trail.length
  rw [DomainTable.popLevel_of_trail open_, kept, open_, List.length_cons]

/-- Narrowing inside a level is taken back, also where it failed. -/
theorem Formed.popLevel_of_narrowed (formed : s.Formed) (opened : s.domains.trail ≠ [])
    {t : DomainTable} (breaks : s.domains.Breaks t) :
    { s with domains := t }.popLevel = s.popLevel ∧ t.level = s.domains.level := by
  obtain ⟨back, same⟩ := breaks.popLevel formed.nested opened
  refine ⟨?_, same⟩
  simp only [Store.popLevel, back]

/-- A constraint that was imposed inside a level goes with the level. -/
theorem popLevel_addConstraint (opened : s.domains.trail ≠ []) (c : Constraint) :
    (s.addConstraint c).popLevel = s.popLevel := by
  have above : ¬ s.level ≤ s.domains.popLevel.level := by
    have := level_popLevel opened
    simp only [level, popLevel] at *
    omega
  have dropped :
      (s.addConstraint c).constraints.filter (·.level ≤ s.domains.popLevel.level) =
        s.constraints.filter (·.level ≤ s.domains.popLevel.level) := by
    rw [addConstraint, List.filter_append, List.filter_cons_of_neg (by simpa using above),
      List.filter_nil, List.append_nil]
  exact congrArg (Store.mk s.declarations s.domains.popLevel) dropped

/-- Variables that are declared inside a level stay when the level is closed. -/
theorem Formed.popLevel_declareAll (formed : s.Formed) (declared : List (Variable × Domain)) :
    (s.declareAll declared).popLevel = s.popLevel.declareAll declared := by
  -- Closing the level needs of the table that its frame is inside, which declaring keeps.
  have folded (s : Store) (sizes : s.domains.savedAt.size = s.domains.domains.size)
      (inside : ∀ entry ∈ s.domains.frame, entry.var.index < s.domains.size) :
      (s.declareAll declared).popLevel = s.popLevel.declareAll declared := by
    induction declared generalizing s with
    | nil => rfl
    | cons first rest ih =>
      obtain ⟨v, d⟩ := first
      have table := DomainTable.popLevel_push sizes inside d
      have one : (s.declare v.name v.kind d).2.popLevel =
          (s.popLevel.declare v.name v.kind d).2 :=
        congrArg (fun domains : DomainTable =>
          Store.mk (s.declarations.push v) domains
            (s.constraints.filter (·.level ≤ domains.level))) table
      rw [declareAll_cons, declareAll_cons, ← one]
      refine ih _ (by simp [Store.declare, DomainTable.push, sizes]) fun entry member => ?_
      have wider : (s.domains.push d).size = s.domains.size + 1 := Array.size_push d
      exact (inside entry member).trans (wider ▸ Nat.lt_succ_self _)
  refine folded s formed.nested.fits.stamps ?_
  cases formed.nested with
  | flat _ _ none => simp [DomainTable.frame, none]
  | inner _ _ _ _ inside _ => exact inside

/-- Declaring leaves the levels as they are. -/
@[simp]
theorem level_declareAll (s : Store) (declared : List (Variable × Domain)) :
    (s.declareAll declared).level = s.level := by
  rw [declareAll_eq]
  rfl

/-- Of a request that stays inside a level only its declaration outlasts the level. -/
theorem Formed.popLevel_apply (formed : s.Formed) (opened : 0 < s.level)
    {operation : StoreOperation} (stays : operation.movesLevel = false) :
    (operation.apply s).popLevel = s.popLevel.declareAll operation.declaration?.toList ∧
      (operation.apply s).level = s.level := by
  have inside : s.domains.trail ≠ [] := List.ne_nil_of_length_pos opened
  rcases formed.apply_cases stays with ⟨none, t, breaks, applied⟩ | ⟨none, c, applied⟩ |
    ⟨v, d, declares, applied⟩
  · obtain ⟨back, same⟩ := formed.popLevel_of_narrowed inside breaks
    rw [applied, none]
    exact ⟨back, same⟩
  · rw [applied, none]
    exact ⟨popLevel_addConstraint inside c, rfl⟩
  · rw [applied, declares]
    exact ⟨formed.popLevel_declareAll [(v, d)], rfl⟩

/-! ## Closing a level after balanced requests -/

theorem Formed.applyAll (formed : s.Formed) {operations : List StoreOperation}
    (inRange : ∀ operation ∈ operations, operation.InRange) :
    (StoreOperation.applyAll s operations).Formed := by
  induction operations generalizing s with
  | nil => exact formed
  | cons operation rest ih =>
    obtain ⟨first, later⟩ := List.forall_mem_cons.1 inRange
    exact ih (formed.apply first) later

/-- Of balanced requests inside a level only the declarations outlast the level. The induction
is on how they nest: what an inner level leaves behind is a declaration of the outer one. -/
theorem Formed.popLevel_applyAll {operations : List StoreOperation}
    (balanced : StoreOperation.Balanced operations) (formed : s.Formed) (opened : 0 < s.level)
    (inRange : ∀ operation ∈ operations, operation.InRange) :
    (StoreOperation.applyAll s operations).popLevel =
        s.popLevel.declareAll (operations.filterMap StoreOperation.declaration?) ∧
      (StoreOperation.applyAll s operations).level = s.level := by
  induction balanced generalizing s with
  | nil => exact ⟨rfl, rfl⟩
  | @single operation rest stays _ ih =>
    obtain ⟨first, later⟩ := List.forall_mem_cons.1 inRange
    obtain ⟨back, same⟩ := formed.popLevel_apply opened stays
    obtain ⟨back', same'⟩ := ih (formed.apply first) (same.symm ▸ opened) later
    refine ⟨?_, same'.trans same⟩
    rw [StoreOperation.applyAll_cons, back', back, ← declareAll_append]
    cases declares : operation.declaration? <;> simp [declares]
  | @nested inner rest _ _ ihInner ihRest =>
    obtain ⟨within, behind⟩ := List.forall_mem_append.1 inRange
    have inside := (List.forall_mem_cons.1 within).2
    have later := (List.forall_mem_cons.1 behind).2
    have formed' : (StoreOperation.applyAll s.pushLevel inner).popLevel.Formed :=
      (formed.pushLevel.applyAll inside).popLevel
    obtain ⟨back, -⟩ := ihInner formed.pushLevel (Nat.succ_pos _) inside
    rw [formed.popLevel_pushLevel] at back
    have outer : StoreOperation.applyAll s
        (.pushLevel :: inner ++ .popLevel :: rest) =
          StoreOperation.applyAll
            (s.declareAll (inner.filterMap StoreOperation.declaration?)) rest := by
      rw [StoreOperation.applyAll_append, ← back]
      rfl
    rw [back] at formed'
    obtain ⟨back', same'⟩ := ihRest formed' (by simpa using opened) later
    rw [outer]
    refine ⟨?_, by simpa using same'⟩
    rw [back', formed.popLevel_declareAll, ← declareAll_append, List.cons_append,
      List.filterMap_cons_none rfl, List.filterMap_append, List.filterMap_cons_none rfl]

/-- Opening a level, balanced requests and closing the level come to the declarations among the
requests. -/
theorem Formed.popLevel_applyAll_pushLevel (formed : s.Formed)
    {operations : List StoreOperation} (balanced : StoreOperation.Balanced operations)
    (inRange : ∀ operation ∈ operations, operation.InRange) :
    (StoreOperation.applyAll s.pushLevel operations).popLevel =
      s.declareAll (operations.filterMap StoreOperation.declaration?) := by
  have closed := (formed.pushLevel.popLevel_applyAll balanced (Nat.succ_pos _) inRange).1
  rwa [formed.popLevel_pushLevel] at closed

/-! ## What was there before, and what was declared since -/

/-- A store that is back where another one was, with further variables behind its own. -/
structure Restored (s after : Store) (declared : List (Variable × Domain)) : Prop where
  level : after.level = s.level
  trail : after.domains.trail = s.domains.trail
  constraints : after.constraints = s.constraints
  size : after.size = s.size + declared.length
  before : ∀ var : VarId, var.index < s.size →
    after.declaration? var = s.declaration? var ∧
      after.domains.get? var = s.domains.get? var ∧
      after.domains.savedAt[var.index]? = s.domains.savedAt[var.index]?
  since : ∀ i v d, declared[i]? = some (v, d) →
    after.declaration? ⟨s.size + i⟩ = some v ∧ after.domains.get? ⟨s.size + i⟩ = some d

theorem Formed.restored_declareAll (formed : s.Formed) (declared : List (Variable × Domain)) :
    s.Restored (s.declareAll declared) declared := by
  have sizes : s.domains.domains.size = s.declarations.size := formed.sizes
  have stamps := formed.nested.fits.stamps
  rw [declareAll_eq]
  refine ⟨rfl, rfl, rfl, by simp [Store.size], fun var inside => ?_, fun i v d listed => ?_⟩
  · unfold Store.size at inside
    refine ⟨Array.getElem?_append_left inside, Array.getElem?_append_left (sizes ▸ inside),
      Array.getElem?_append_left (by omega)⟩
  · refine ⟨?_, ?_⟩
    · show (s.declarations ++ _)[s.declarations.size + i]? = _
      rw [Array.getElem?_append_right (Nat.le_add_right ..), Nat.add_sub_cancel_left]
      simp [listed]
    · show (s.domains.domains ++ _)[s.declarations.size + i]? = _
      rw [← sizes, Array.getElem?_append_right (Nat.le_add_right ..), Nat.add_sub_cancel_left]
      simp [listed]

/-- Closing a level after balanced requests restores the store: its level, its constraints, and
the domain and stamp of each variable that it had. What was declared in between stays, with the
domains that it was declared with. -/
theorem restored_of_balanced (reached : s.Reachable) {operations : List StoreOperation}
    (balanced : StoreOperation.Balanced operations)
    (inRange : ∀ operation ∈ operations, operation.InRange) :
    s.Restored (StoreOperation.applyAll s.pushLevel operations).popLevel
      (operations.filterMap StoreOperation.declaration?) := by
  rw [reached.formed.popLevel_applyAll_pushLevel balanced inRange]
  exact reached.formed.restored_declareAll _

/-- A store with an open level, and requests that fail, declare at two levels and narrow what
they have declared. -/
theorem restored_of_balanced_nested :
    ∃ (s : Store) (operations : List StoreOperation), s.Reachable ∧ s.level = 1 ∧
      StoreOperation.Balanced operations ∧
      s.Restored (StoreOperation.applyAll s.pushLevel operations).popLevel
        [(⟨"y", .int⟩, .int (IntDomain.interval 0 5)),
          (⟨"b", .bool⟩, .int (IntDomain.interval 0 1))] := by
  let s := StoreOperation.applyAll empty
    [.declareInt "x" 0 9, .pushLevel, .assign ⟨0⟩ 3, .impose (.notEqual ⟨0⟩ ⟨0⟩)]
  let operations : List StoreOperation :=
    .declareInt "y" 0 5 :: .impose (.lessThan ⟨0⟩ ⟨1⟩) :: .consistency ::
      (.pushLevel :: [.declareBool "b", .assign ⟨2⟩ 1, .removeValue ⟨1⟩ 4, .restrictMax ⟨1⟩ (-1)] ++
        .popLevel :: [.assign ⟨0⟩ 7])
  have reached : s.Reachable := Reachable.empty.applyAll (by decide)
  have balanced : StoreOperation.Balanced operations :=
    .single rfl (.single rfl (.single rfl (.nested
      (.single rfl (.single rfl (.single rfl (.single rfl .nil)))) (.single rfl .nil))))
  have inRange : ∀ operation ∈ operations, operation.InRange := by decide
  exact ⟨s, operations, reached, rfl, balanced, restored_of_balanced reached balanced inRange⟩

end Store

end StagedSearch
