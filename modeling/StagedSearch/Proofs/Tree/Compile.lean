/-
# What compiling promises

A search that was compiled for a store has variables that are declared there, with kinds that
its own kind takes, and a value order that lists the values of all such variables. A variable
order, a preference and a random seed change none of this. Compiling all leaves of a search
promises it of every stage.
-/

import StagedSearch.Proofs.Search.Running

namespace StagedSearch

/-- Variables and orders that the engine can work with on a store. -/
structure CompiledSearch.Works (c : CompiledSearch) (s : Store) : Prop where
  takes : ∀ var ∈ c.vars, ∃ v, s.declaration? var = some v ∧ takes c.kind v.kind = true
  order : c.valueOrder.SuitsKind c.kind

theorem SolveError.ofStore_eq_ok {α : Type} {request : Except StoreError α} {a : α} :
    ofStore request = .ok a ↔ request = .ok a := by
  cases request <;> simp [ofStore]

theorem Store.declaration_eq_ok {s : Store} {var : VarId} {v : Variable} :
    s.declaration var = .ok v ↔ s.declaration? var = some v := by
  unfold Store.declaration
  cases s.declaration? var <;> simp

namespace CompiledSearch

variable {s : Store} {leaf : VarKind} {seeds seeds' : Generator}

/-- Variables that pass the check are declared, with kinds that the leaf takes. -/
theorem takes_of_checkVariables {vars : List VarId}
    (checked : checkVariables (.leaf leaf) s vars = .ok ()) :
    ∀ var ∈ vars, ∃ v, s.declaration? var = some v ∧ takes leaf v.kind = true := by
  induction vars with
  | nil => simp
  | cons var rest ih =>
    obtain ⟨v, found, checked⟩ := except_bind_eq_ok.1 checked
    have declared := Store.declaration_eq_ok.1 (SolveError.ofStore_eq_ok.1 found)
    simp only at checked
    split at checked
    · rename_i taken
      intro other member
      rcases List.mem_cons.1 member with rfl | member
      · exact ⟨v, declared, taken⟩
      · exact ih checked other member
    · cases checked

/-- The order that a preference settles on lists the values of every domain of the kind. -/
theorem suitsKind_of_settleValueOrder {preference : ValuePreference} {order : ValueOrder}
    (settled : settleValueOrder leaf preference seeds = .ok order seeds') :
    order.SuitsKind leaf := by
  intro kind d taken suits
  have numeric (suits : leaf ≠ .set) : ∃ e, d = .int e := by
    cases d with
    | int e => exact ⟨e, rfl⟩
    | set e => cases leaf <;> cases kind <;> simp_all [takes, VarKind.Suits]
  have settles (order' : ValueOrder) (suits' : order'.Suits d)
      (run : (pure order' : Seeded ValueOrder) seeds = .ok order seeds') : order.Suits d := by
    obtain ⟨rfl, -⟩ := pure_eq_ok.1 run
    exact suits'
  cases leaf with
  | set =>
    obtain ⟨e, rfl⟩ : ∃ e, d = .set e := by
      cases d with
      | int e => cases kind <;> simp_all [takes, VarKind.Suits]
      | set e => exact ⟨e, rfl⟩
    cases preference with
    | min => exact settles .smallestElement trivial settled
    | max => exact settles .largestElement trivial settled
    | middle => cases settled
    | random => cases settled
  | int | bool =>
    obtain ⟨e, rfl⟩ := numeric (by simp)
    cases preference with
    | min => exact settles .ascending trivial settled
    | max => exact settles .descending trivial settled
    | middle => exact settles .middleOut trivial settled
    | random =>
      obtain ⟨_, _, _, settled⟩ := bind_eq_ok.1 settled
      obtain ⟨_, _, _, settled⟩ := bind_eq_ok.1 settled
      obtain ⟨rfl, -⟩ := pure_eq_ok.1 settled
      trivial

/-- Sorting by size neither adds nor drops variables. -/
theorem settleVariables_perm (search : VarSearch) (s : Store) :
    (settleVariables search s).1.Perm search.vars := by
  unfold settleVariables
  split
  · exact .refl _
  · exact List.mergeSort_perm _ _

/-- What compiling makes of a leaf whose variables pass the check: nothing if there are none, and
otherwise a search with settled orders. -/
theorem compile_cases {search : VarSearch} {first : Option CompiledSearch}
    (compiled : compile (.leaf leaf) search s seeds = .ok first seeds') :
    checkVariables (.leaf leaf) s search.vars = .ok () ∧
      (search.vars = [] ∧ first = none ∨
        search.vars ≠ [] ∧ ∃ order,
          settleValueOrder leaf (search.preference.getD .min) seeds = .ok order seeds' ∧
          first = some ⟨leaf, (settleVariables search s).1, (settleVariables search s).2,
            search.preference.getD .min, search.exploration, order⟩) := by
  unfold compile at compiled
  cases checked : checkVariables (.leaf leaf) s search.vars with
  | error e =>
    rw [checked] at compiled
    cases compiled
  | ok =>
    rw [checked] at compiled
    simp only at compiled
    refine ⟨rfl, ?_⟩
    split at compiled
    · rename_i empty
      obtain ⟨rfl, -⟩ := pure_eq_ok.1 compiled
      exact .inl ⟨List.isEmpty_iff.1 empty, rfl⟩
    · rename_i nonempty
      obtain ⟨order, _, settled, compiled⟩ := bind_eq_ok.1 compiled
      obtain ⟨rfl, rfl⟩ := pure_eq_ok.1 compiled
      exact .inr ⟨fun empty => nonempty (List.isEmpty_iff.2 empty), order, settled, rfl⟩

/-- A compiled search works. -/
theorem works_of_compile {search : VarSearch} {c : CompiledSearch}
    (compiled : compile (.leaf leaf) search s seeds = .ok (some c) seeds') : c.Works s := by
  obtain ⟨checked, ⟨-, none⟩ | ⟨-, order, settled, same⟩⟩ := compile_cases compiled
  · cases none
  · obtain rfl := Option.some.inj same
    refine ⟨fun var member => ?_, suitsKind_of_settleValueOrder settled⟩
    exact takes_of_checkVariables checked var ((settleVariables_perm search s).mem_iff.1 member)

/-- Preferring the least or the greatest values of integers settles their order. -/
theorem valueOrder_of_compile {search : VarSearch} {c : CompiledSearch}
    (compiled : compile (.leaf leaf) search s seeds = .ok (some c) seeds')
    (numeric : c.kind ≠ .set) :
    (c.preference = .min → c.valueOrder = .ascending) ∧
      (c.preference = .max → c.valueOrder = .descending) := by
  obtain ⟨-, ⟨-, none⟩ | ⟨-, order, settled, same⟩⟩ := compile_cases compiled
  · cases none
  obtain rfl := Option.some.inj same
  simp only at numeric ⊢
  generalize search.preference.getD .min = preference at settled ⊢
  refine ⟨?_, ?_⟩
  · rintro rfl
    cases leaf with
    | int | bool => exact (pure_eq_ok.1 settled).1.symm
    | set => exact absurd rfl numeric
  · rintro rfl
    cases leaf with
    | int | bool => exact (pure_eq_ok.1 settled).1.symm
    | set => exact absurd rfl numeric

/-- A leaf that compiles to something decides its variables; one without variables compiles to
nothing. -/
theorem mem_vars_of_compile {search : VarSearch} {first : Option CompiledSearch}
    (compiled : compile (.leaf leaf) search s seeds = .ok first seeds') (var : VarId) :
    (∃ c ∈ first, var ∈ c.vars) ↔ var ∈ search.vars := by
  obtain ⟨-, ⟨empty, rfl⟩ | ⟨-, order, -, rfl⟩⟩ := compile_cases compiled
  · simp [empty]
  · simp [(settleVariables_perm search s).mem_iff]

end CompiledSearch

namespace SearchSpec

variable {s : Store} {seeds seeds' : Generator}

variable {holds : CompiledSearch → Prop}
  (each : ∀ {leaf : VarKind} {search : VarSearch} {c : CompiledSearch} {seeds seeds' : Generator},
    CompiledSearch.compile (.leaf leaf) search s seeds = .ok (some c) seeds' → holds c)
include each

/-- What holds of all that a leaf compiles to holds of the stages of some leaves. -/
theorem forall_of_compileAll {role : NodeRole} {leaves : List (VarKind × VarSearch)}
    {stages : List Stage} (compiled : compileAll s role leaves seeds = .ok stages seeds') :
    ∀ stage ∈ stages, holds stage.search := by
  induction leaves generalizing stages seeds seeds' with
  | nil =>
    obtain ⟨rfl, -⟩ := pure_eq_ok.1 compiled
    simp
  | cons leaf rest ih =>
    obtain ⟨first, _, here, compiled⟩ := bind_eq_ok.1 compiled
    obtain ⟨later, _, there, compiled⟩ := bind_eq_ok.1 compiled
    obtain ⟨rfl, -⟩ := pure_eq_ok.1 compiled
    intro stage member
    rcases List.mem_append.1 member with own | member
    · cases first with
      | none => simp at own
      | some c =>
        obtain rfl : stage = ⟨c, role⟩ := by simpa using own
        exact each here
    · exact ih there stage member

omit each in
/-- The stages of a search are those of its leaves, and then those of the variables that no leaf
claims. -/
theorem exists_of_stages {spec : SearchSpec} {names : Names} {stages : List Stage}
    (compiled : spec.stages names s seeds = .ok stages seeds') :
    ∃ explicit completion sets between, compileAll s .explicit spec.leaves seeds =
        .ok explicit between ∧ spec.completion names s = .ok sets ∧
      compileAll s .completion (sets.map fun (kind, vars) => (kind, .plain vars)) between =
        .ok completion seeds' ∧ stages = explicit ++ completion := by
  obtain ⟨explicit, between, here, compiled⟩ := bind_eq_ok.1 compiled
  cases sets : spec.completion names s with
  | error e =>
    rw [sets] at compiled
    cases compiled
  | ok sets' =>
    rw [sets] at compiled
    obtain ⟨completion, _, there, compiled⟩ := bind_eq_ok.1 compiled
    obtain ⟨rfl, rfl⟩ := pure_eq_ok.1 compiled
    exact ⟨explicit, completion, sets', between, here, rfl, there, rfl⟩

/-- What holds of all that a leaf compiles to holds of every stage, whether a hint asks for it or
not. -/
theorem forall_of_stages {spec : SearchSpec} {names : Names} {stages : List Stage}
    (compiled : spec.stages names s seeds = .ok stages seeds') :
    ∀ stage ∈ stages, holds stage.search := by
  obtain ⟨explicit, completion, sets, _, here, -, there, rfl⟩ := exists_of_stages compiled
  intro stage member
  rcases List.mem_append.1 member with asked | completed
  · exact forall_of_compileAll each here stage asked
  · exact forall_of_compileAll each there stage completed

omit each

/-- Every stage of a search works. -/
theorem works_of_stages {spec : SearchSpec} {names : Names} {stages : List Stage}
    (compiled : spec.stages names s seeds = .ok stages seeds') :
    ∀ stage ∈ stages, stage.search.Works s :=
  forall_of_stages CompiledSearch.works_of_compile compiled

/-! ## What the stages decide -/

/-- The stages of some leaves decide the variables of the leaves. -/
theorem exists_mem_vars_of_compileAll {role : NodeRole} {leaves : List (VarKind × VarSearch)}
    {stages : List Stage} (compiled : compileAll s role leaves seeds = .ok stages seeds')
    {var : VarId} :
    (∃ stage ∈ stages, var ∈ stage.search.vars) ↔ ∃ leaf ∈ leaves, var ∈ leaf.2.vars := by
  induction leaves generalizing stages seeds seeds' with
  | nil =>
    obtain ⟨rfl, -⟩ := pure_eq_ok.1 compiled
    simp
  | cons leaf rest ih =>
    obtain ⟨first, _, here, compiled⟩ := bind_eq_ok.1 compiled
    obtain ⟨later, _, there, compiled⟩ := bind_eq_ok.1 compiled
    obtain ⟨rfl, -⟩ := pure_eq_ok.1 compiled
    have own := CompiledSearch.mem_vars_of_compile here var
    rw [List.exists_mem_cons_iff, ← ih there, ← own]
    cases first <;> simp [or_and_right, exists_or]

/-- The variables of a list keep their places when their kinds are looked up. -/
theorem exists_mem_kindsOf {vars : List VarId} {kinds : List (VarId × VarKind)}
    (found : kindsOf s vars = .ok kinds) {var : VarId} :
    (∃ kind, (var, kind) ∈ kinds) ↔ var ∈ vars := by
  induction vars generalizing kinds with
  | nil =>
    cases found
    simp
  | cons first rest ih =>
    obtain ⟨v, -, found⟩ := except_bind_eq_ok.1 found
    obtain ⟨later, there, found⟩ := except_bind_eq_ok.1 found
    cases found
    simp [exists_or, ih there]

theorem mem_ofKind {kinds : List (VarId × VarKind)} {kind : VarKind} {var : VarId} :
    var ∈ ofKind kind kinds ↔ (var, kind) ∈ kinds := by
  simp [ofKind]

/-- What completes a search are the decision variables that no hint claims. -/
theorem exists_mem_of_completion {spec : SearchSpec} {names : Names}
    {sets : List (VarKind × List VarId)} (completed : spec.completion names s = .ok sets)
    {var : VarId} :
    (∃ entry ∈ sets, var ∈ entry.2) ↔ var ∈ names.decisions ∧ var ∉ spec.claimed := by
  obtain ⟨kinds, found, completed⟩ := except_bind_eq_ok.1 completed
  cases completed
  have listed : (∃ kind, (var, kind) ∈ kinds) ↔ var ∈ names.decisions ∧ var ∉ spec.claimed := by
    rw [exists_mem_kindsOf found]
    simp
  rw [← listed]
  constructor
  · rintro ⟨entry, member, inside⟩
    obtain ⟨kind, -, rfl⟩ := List.mem_map.1 member
    exact ⟨kind, mem_ofKind.1 inside⟩
  · rintro ⟨kind, member⟩
    exact ⟨(kind, ofKind kind kinds), List.mem_map.2 ⟨kind, by cases kind <;> simp, rfl⟩,
      mem_ofKind.2 member⟩

/-- Hints claim the variables of the leaves that they ask for. -/
theorem mem_claimed_iff {spec : SearchSpec} {var : VarId} :
    var ∈ spec.claimed ↔ ∃ leaf ∈ spec.leaves, var ∈ leaf.2.vars := by
  unfold leaves claimed
  cases spec.directive with
  | none => simp
  | some directive =>
    simp only [SearchDirective.claimed_eq_flatMap]
    exact List.mem_flatMap

/-- The stages of a search decide the variables that hints claim and the decision variables. -/
theorem exists_mem_vars_of_stages {spec : SearchSpec} {names : Names} {stages : List Stage}
    (compiled : spec.stages names s seeds = .ok stages seeds') {var : VarId} :
    (∃ stage ∈ stages, var ∈ stage.search.vars) ↔
      var ∈ spec.claimed ∨ var ∈ names.decisions := by
  obtain ⟨explicit, completion, sets, _, here, completed, there, rfl⟩ := exists_of_stages compiled
  have plain : (∃ leaf ∈ sets.map fun (kind, vars) => (kind, VarSearch.plain vars),
      var ∈ leaf.2.vars) ↔ ∃ entry ∈ sets, var ∈ entry.2 := by
    simp [VarSearch.plain]
  simp only [List.mem_append, or_and_right, exists_or]
  rw [exists_mem_vars_of_compileAll here, exists_mem_vars_of_compileAll there, ← mem_claimed_iff,
    plain, exists_mem_of_completion completed]
  tauto

end SearchSpec

end StagedSearch
