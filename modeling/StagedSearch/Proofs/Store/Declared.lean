/-
# Domains stay within the declared ones

Narrowing makes domains smaller, but closing a level makes them larger again. So the invariant
speaks of all levels at once: however many of them are closed, each domain lies within the one
that its variable was declared with (`Store.Keeps`). Together with what `Formed` says of a store,
this is what every sequence of requests leaves, failing requests included
(`wellFormed_of_applyAll`).

A variable that is declared inside a level outlasts it. The stores are therefore compared with
the store that has the same declarations and nothing else, `empty.declareAll declared`.
-/

import StagedSearch.Proofs.Store.Restoration

namespace StagedSearch

namespace Store

/-- The variables of the store are the listed ones, and each has a domain that lies within the
listed one. -/
structure Declares (s : Store) (declared : List (Variable × Domain)) : Prop where
  size : s.size = declared.length
  each : ∀ i v d, declared[i]? = some (v, d) →
    s.declaration? ⟨i⟩ = some v ∧ ∃ e, s.domains.get? ⟨i⟩ = some e ∧ e.Within d

/-- The invariant behind `Declares`: at every level the store lies within the one that has the
same declarations and nothing else. -/
structure Keeps (s : Store) (declared : List (Variable × Domain)) : Prop where
  declarations : s.declarations = (empty.declareAll declared).declarations
  domains : s.domains.EveryLevel (·.Within (empty.declareAll declared).domains)

variable {s : Store} {declared : List (Variable × Domain)}

theorem keeps_empty : empty.Keeps [] where
  declarations := rfl
  domains := .of_trail_nil (.refl _) rfl

theorem Keeps.of_breaks (keeps : s.Keeps declared) (formed : s.Formed) {u : DomainTable}
    (breaks : s.domains.Breaks u) : { s with domains := u }.Keeps declared :=
  ⟨keeps.declarations, keeps.domains.of_breaks formed.nested breaks
    (breaks.within.trans keeps.domains.here)⟩

theorem Keeps.declare (keeps : s.Keeps declared) (formed : s.Formed) (v : Variable)
    (d : Domain) : (s.declare v.name v.kind d).2.Keeps (declared ++ [(v, d)]) := by
  have later : empty.declareAll (declared ++ [(v, d)]) =
      ((empty.declareAll declared).declare v.name v.kind d).2 := declareAll_append ..
  constructor
  · rw [later]
    exact congrArg (·.push v) keeps.declarations
  · rw [later]
    exact keeps.domains.push formed.nested fun _ within => within.push d

/-- One request adds the variable that it declares, if any. -/
theorem Keeps.apply (keeps : s.Keeps declared) (formed : s.Formed)
    (operation : StoreOperation) :
    (operation.apply s).Keeps (declared ++ operation.declaration?.toList) := by
  have undeclared (none : operation.declaration? = none)
      (kept : (operation.apply s).Keeps declared) :
      (operation.apply s).Keeps (declared ++ operation.declaration?.toList) := by
    rw [none, Option.toList_none, List.append_nil]
    exact kept
  cases stays : operation.movesLevel with
  | true =>
    cases operation with
    | pushLevel =>
      exact undeclared rfl ⟨keeps.declarations, keeps.domains.pushLevel keeps.domains.here⟩
    | popLevel => exact undeclared rfl ⟨keeps.declarations, keeps.domains.popLevel⟩
    | _ => cases stays
  | false =>
    rcases formed.apply_cases stays with
      ⟨none, t, breaks, applied⟩ | ⟨none, c, applied⟩ | ⟨v, d, declares, applied⟩
    · exact undeclared none (applied ▸ keeps.of_breaks formed breaks)
    · exact undeclared none (applied ▸ ⟨keeps.declarations, keeps.domains⟩)
    · rw [applied, declares]
      exact keeps.declare formed v d

/-- A run of requests adds the variables that its requests declare. -/
theorem Keeps.applyAll (keeps : s.Keeps declared) (formed : s.Formed)
    {operations : List StoreOperation} (inRange : ∀ operation ∈ operations, operation.InRange) :
    (StoreOperation.applyAll s operations).Keeps
      (declared ++ operations.filterMap StoreOperation.declaration?) := by
  induction operations generalizing s declared with
  | nil => simpa using keeps
  | cons operation rest ih =>
    obtain ⟨first, later⟩ := List.forall_mem_cons.1 inRange
    have next := ih (keeps.apply formed operation) (formed.apply first) later
    have listed : declared ++ (operation :: rest).filterMap StoreOperation.declaration? =
        declared ++ operation.declaration?.toList ++
          rest.filterMap StoreOperation.declaration? := by
      cases declares : operation.declaration? <;> simp [declares]
    rw [listed]
    exact next

theorem Keeps.declares (keeps : s.Keeps declared) : s.Declares declared := by
  obtain ⟨-, -, -, size, -, since⟩ := formed_empty.restored_declareAll declared
  have none : empty.size = 0 := rfl
  simp only [none, Nat.zero_add] at size since
  have same : s.declaration? = (empty.declareAll declared).declaration? := by
    funext var
    unfold declaration?
    rw [keeps.declarations]
  constructor
  · rw [← size, Store.size, Store.size, keeps.declarations]
  · intro i v d listed
    obtain ⟨declares, there⟩ := since i v d listed
    exact ⟨same ▸ declares, keeps.domains.here.smaller there⟩

/-- Whatever is asked of a store from the empty one on, it is well formed, its variables are
those that were declared, and no domain is larger than declared. -/
theorem wellFormed_of_applyAll (operations : List StoreOperation)
    (inRange : ∀ operation ∈ operations, operation.InRange) :
    (StoreOperation.applyAll empty operations).WellFormed ∧
      (StoreOperation.applyAll empty operations).Declares
        (operations.filterMap StoreOperation.declaration?) :=
  ⟨(formed_empty.applyAll inRange).wellFormed,
    (keeps_empty.applyAll formed_empty inRange).declares⟩

/-- A declaration is refused, another one is made inside a level that is closed later, a request
fails outside of all levels, and a level is closed that was not opened. -/
theorem wellFormed_of_applyAll_closed :
    let operations : List StoreOperation :=
      [.declareValues "x" [1, 5], .popLevel, .declareInt "none" 3 2, .pushLevel,
        .declareSet "y" [2] [1, 2, 3], .impose (.notEqual ⟨0⟩ ⟨0⟩), .removeValue ⟨0⟩ 5,
        .includeElement ⟨1⟩ 3, .consistency, .popLevel, .declareBool "b", .assign ⟨2⟩ 7,
        .assign ⟨0⟩ 3]
    (StoreOperation.applyAll empty operations).WellFormed ∧
      (StoreOperation.applyAll empty operations).Declares
        [(⟨"x", .int⟩, .int (IntDomain.ofValues [1, 5])),
          (⟨"y", .set⟩, .set ⟨[2], [1, 2, 3]⟩),
          (⟨"b", .bool⟩, .int (IntDomain.interval 0 1))] :=
  wellFormed_of_applyAll _ (by decide)

end Store

end StagedSearch
