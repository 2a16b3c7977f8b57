/-
# Fixing variables without search

The choices that decide variables to given values are committed one after another, and then
the store is propagated once. This says without any search whether the values are possible
together as far as propagation sees: it succeeds exactly if some settled table below the store
has the domains of the values. The order of the variables does not matter for that.
-/

import StagedSearch.Proofs.Store.Values

namespace StagedSearch

namespace Store

/-- The choices that decide a variable to a value. A set is decided element by element: those
of the value are taken in, and all others that are possible are left out. -/
def fixing (s : Store) (var : VarId) : Value → List Choice
  | .int value => [.assign var value]
  | .bool value => [.assign var (if value then 1 else 0)]
  | .set elements =>
    let possible := ((s.domains.set? var).map SetDomain.lub).getD []
    elements.map (.takeIn var) ++ (possible.filter (!elements.contains ·)).map (.leaveOut var)

/-- Commits choices in order, and says whether none of them failed. -/
def commitAll (s : Store) : List Choice → Bool × Store
  | [] => (true, s)
  | choice :: rest =>
    match choice.commit s with
    | (.ok _, s) => s.commitAll rest
    | (.error _, s) => (false, s)

/-- Decides some variables at once and propagates. Says whether nothing failed. -/
def fix (s : Store) (vars : List VarId) (values : VarId → Value) : Bool :=
  match s.commitAll (vars.flatMap fun var => s.fixing var (values var)) with
  | (true, s) => s.consistency.1
  | (false, _) => false

variable {s u : Store} {p : DomainTable} {choices : List Choice} {var : VarId} {v : Variable}
  {value : Value}

/-! ## Committing choices -/

/-- Choices that were all committed have narrowed the table, which is as they say. -/
theorem narrows_of_commitAll (canonical : s.domains.Canonical) (filled : s.domains.Filled)
    (committed : s.commitAll choices = (true, u)) :
    s.domains.Narrows u.domains ∧ u.rules = s.rules ∧
      ∀ choice ∈ choices, u.domains.Obeys choice := by
  induction choices generalizing s with
  | nil =>
    cases committed
    exact ⟨.refl _, rfl, by simp⟩
  | cons choice rest ih =>
    unfold commitAll at committed
    rw [Choice.commit_eq_narrow] at committed
    unfold narrow at committed
    cases run : choice.operation s.domains with
    | error e t =>
      rw [run] at committed
      cases committed
    | ok changed t =>
      rw [run] at committed
      have first := choice.carries_operation.narrows canonical run
      have canonical' := first.canonical canonical
      obtain ⟨later, rules, obeys⟩ := ih (s := { s with domains := t }) canonical'
        (first.filled filled) committed
      refine ⟨first.trans later, rules, fun other member => ?_⟩
      rcases List.mem_cons.1 member with rfl | member
      · refine (Choice.obeys_of_operation canonical run).of_within (later.canonical canonical')
          canonical' later.within fun d here => ?_
        exact later.filled (first.filled filled) other.var d here
      · exact obeys other member

/-- Choices can all be committed above a table that is as they say, and the store stays above
it. -/
theorem commitAll_of_below (canonical : p.Canonical) (below : p.Below s.domains)
    (obeys : ∀ choice ∈ choices, p.Obeys choice) :
    ∃ u, s.commitAll choices = (true, u) ∧ p.Below u.domains := by
  induction choices generalizing s with
  | nil => exact ⟨s, rfl, below⟩
  | cons choice rest ih =>
    obtain ⟨changed, t, run, below', -⟩ :=
      Choice.spares_operation canonical (obeys choice (by simp)) s.domains below
    obtain ⟨u, committed, above⟩ := ih (s := { s with domains := t }) below'
      fun later member => obeys later (by simp [member])
    refine ⟨u, ?_, above⟩
    unfold commitAll
    rw [Choice.commit_eq_narrow]
    simp only [narrow, run, committed]

/-! ## Fixing -/

/-- A table is as the choices of some elements say if the variable takes them and no others. -/
theorem obeys_elements_iff {e : SetDomain} {elements possible : List Int}
    (there : p.set? var = some e) (formed : e.Canonical) (takes : Elements.Ascending elements)
    (listed : ∀ element ∈ e.lub, element ∈ possible) :
    (∀ choice ∈ elements.map (.takeIn var) ++
        (possible.filter (!elements.contains ·)).map (.leaveOut var), p.Obeys choice) ↔
      e = ⟨elements, elements⟩ := by
  have takenIn (element : Int) : p.Obeys (.takeIn var element) ↔ element ∈ e.glb := by
    simp [DomainTable.Obeys, there]
  have leftOut (element : Int) : p.Obeys (.leaveOut var element) ↔ element ∉ e.lub := by
    simp [DomainTable.Obeys, there]
  rw [List.forall_mem_append]
  simp only [List.forall_mem_map, List.mem_filter, Bool.not_eq_true', takenIn, leftOut]
  constructor
  · rintro ⟨taken, left⟩
    have only : ∀ element ∈ e.lub, element ∈ elements := by
      intro element inside
      by_contra outside
      exact left element ⟨listed element inside, by simp [outside]⟩ inside
    have lower : e.glb = elements := formed.lower.ext takes fun element =>
      ⟨fun inside => only element (formed.nested element inside), taken element⟩
    have upper : e.lub = elements := formed.upper.ext takes fun element =>
      ⟨only element, fun member => formed.nested element (taken element member)⟩
    cases e
    simp_all
  · rintro rfl
    refine ⟨fun element member => member, fun element outside inside => ?_⟩
    simp [inside] at outside

/-- A table below a store is as the choices of a value say if it has the domain of the value. -/
theorem Formed.obeys_fixing_iff (formed : s.Formed) (declared : s.declaration? var = some v)
    (takes : v.kind.Takes value) (canonical : p.Canonical) (within : p.Within s.domains) :
    (∀ choice ∈ s.fixing var value, p.Obeys choice) ↔ p.get? var = some value.domain := by
  have assigned (number : Int) : p.Obeys (.assign var number) ↔
      p.get? var = some (.int (IntDomain.interval number number)) := by
    rw [← DomainTable.int?_eq_some_iff]
    constructor
    · rintro ⟨d, here, only⟩
      rwa [IntDomain.value?_eq_some_iff_interval.1 only] at here
    · intro here
      exact ⟨_, here, IntDomain.value?_interval number⟩
  cases value with
  | int value => simpa [fixing, Value.domain] using assigned value
  | bool value => simpa [fixing, Value.domain] using assigned (if value then 1 else 0)
  | set elements =>
    obtain ⟨name, kind⟩ := v
    obtain ⟨d, here, suits⟩ := formed.exists_domain declared
    cases kind with
    | int => exact takes.elim
    | bool => exact takes.elim
    | set =>
      cases d with
      | int d => exact suits.elim
      | set d =>
        obtain ⟨e, there, inner⟩ := within.smaller here
        cases e with
        | int e => exact inner.elim
        | set e =>
          have here' := DomainTable.set?_eq_some_iff.2 here
          have there' := DomainTable.set?_eq_some_iff.2 there
          rw [there, Option.some.injEq]
          simp only [fixing, here', Option.map_some, Option.getD_some]
          rw [obeys_elements_iff there' (canonical var _ there) takes inner.2]
          simp [Value.domain]

/-- Fixing succeeds exactly if some settled table below the store has the domains of the
values. -/
theorem fix_eq_true_iff (formed : s.Formed) (filled : s.domains.Filled) {vars : List VarId}
    {values : VarId → Value}
    (takes : ∀ var ∈ vars, ∃ v, s.declaration? var = some v ∧ v.kind.Takes (values var)) :
    s.fix vars values = true ↔ ∃ p : DomainTable, p.Settled s.rules ∧ p.Within s.domains ∧
      ∀ var ∈ vars, p.get? var = some (values var).domain := by
  have obeys_iff {p : DomainTable} (canonical : p.Canonical) (within : p.Within s.domains) :
      (∀ choice ∈ vars.flatMap fun var => s.fixing var (values var), p.Obeys choice) ↔
        ∀ var ∈ vars, p.get? var = some (values var).domain := by
    simp only [List.mem_flatMap, forall_exists_index, and_imp]
    constructor
    · intro obeys var member
      obtain ⟨v, declared, typed⟩ := takes var member
      exact (formed.obeys_fixing_iff declared typed canonical within).1
        fun choice inside => obeys choice var member inside
    · intro same choice var member
      obtain ⟨v, declared, typed⟩ := takes var member
      exact (formed.obeys_fixing_iff declared typed canonical within).2 (same var member) choice
  unfold fix
  constructor
  · intro succeeds
    split at succeeds
    · rename_i u committed
      obtain ⟨narrows, rules, obeys⟩ := narrows_of_commitAll formed.canonical filled committed
      have run : u.domains.propagateAll u.rules = (true, u.consistency.2.domains) :=
        Prod.ext succeeds rfl
      have sound := narrows.sound formed.sound
      have settled := DomainTable.settled_of_propagateAll sound (narrows.filled filled) run
      obtain ⟨further, -⟩ := DomainTable.narrows_of_propagateAll sound.canonical run
      have within := further.within.trans narrows.within
      refine ⟨_, rules ▸ settled, within, (obeys_iff settled.sound.canonical within).1 ?_⟩
      intro choice member
      exact (obeys choice member).of_within settled.sound.canonical sound.canonical further.within
        fun d here => settled.filled _ d here
    · cases succeeds
  · rintro ⟨p, settled, within, same⟩
    have canonical := settled.sound.canonical
    obtain ⟨u, committed, below⟩ := commitAll_of_below canonical ⟨formed.sound, within⟩
      ((obeys_iff canonical within).2 same)
    obtain ⟨-, rules, -⟩ := narrows_of_commitAll formed.canonical filled committed
    rw [committed]
    obtain ⟨w, run, -⟩ := (rules ▸ settled : p.Settled u.rules).propagateAll below
    show (u.domains.propagateAll u.rules).1 = true
    rw [run]

end Store

end StagedSearch
