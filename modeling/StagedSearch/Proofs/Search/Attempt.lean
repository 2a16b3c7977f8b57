/-
# One candidate

Trying a candidate commits a choice, demands an improvement and propagates. All three narrow
the table, so whatever comes of it can be taken back; where it succeeds, the table is stable,
as the choice says, and better than the incumbent. And it succeeds wherever a settled table
below is all of that, and stays above that table.
-/

import StagedSearch.Proofs.Branching.Partition
import StagedSearch.Proofs.Store.Reachable
import StagedSearch.Search.Engine

namespace StagedSearch

namespace DomainTable

/-- Every value that a bound can take is below the incumbent, when there are both. -/
def Improves (t : DomainTable) (bound : Option VarId) (incumbent : Option Int) : Prop :=
  ∀ var best, bound = some var → incumbent = some best → ∀ value, t.Holds var value → value < best

variable {p t u : DomainTable} {bound : Option VarId} {incumbent : Option Int}

theorem Improves.of_within (improves : t.Improves bound incumbent) (within : p.Within t) :
    p.Improves bound incumbent :=
  fun var best here there value holds => improves var best here there value (within.holds holds)

/-- Without a bound there is nothing to improve on. -/
theorem improves_of_bound_none (t : DomainTable) (incumbent : Option Int) :
    t.Improves none incumbent := nofun

/-- A variable that a choice has decided about has a value. -/
theorem Obeys.hasValue {choice : Choice} (obeys : t.Obeys choice) (canonical : t.Canonical)
    {d : Domain} (here : t.get? choice.var = some d) : d.HasValue := by
  cases choice with
  | assign var value =>
    obtain ⟨e, there, only⟩ := obeys
    obtain rfl := Option.some.inj (here.symm.trans (int?_eq_some_iff.1 there))
    exact ⟨value, ((canonical.int? there).value?_eq_some_iff.1 only value).2 rfl⟩
  | takeIn var element =>
    obtain ⟨e, there, -⟩ := obeys
    obtain rfl := Option.some.inj (here.symm.trans (set?_eq_some_iff.1 there))
    trivial
  | leaveOut var element =>
    obtain ⟨e, there, -⟩ := obeys
    obtain rfl := Option.some.inj (here.symm.trans (set?_eq_some_iff.1 there))
    trivial

end DomainTable

/-! ## The choice -/

def Choice.operation : Choice → Narrowing Bool
  | assign var value => Narrowing.restrict var value value
  | takeIn var element => Narrowing.includeElement var element
  | leaveOut var element => Narrowing.excludeElement var element

namespace Choice

variable {p t u : DomainTable} {choice : Choice} {changed : Bool}

theorem commit_eq_narrow (choice : Choice) (s : Store) :
    choice.commit s = s.narrow choice.operation := by
  cases choice <;> rfl

theorem carries_operation (choice : Choice) : Narrowing.Carries false choice.operation := by
  cases choice with
  | assign var value => exact Narrowing.carries_restrict var value value
  | takeIn var element => exact Narrowing.carries_includeElement var element
  | leaveOut var element => exact Narrowing.carries_excludeElement var element

theorem obeys_of_operation (canonical : t.Canonical) (run : choice.operation t = .ok changed u) :
    u.Obeys choice := by
  have formed := ((carries_operation choice).narrows canonical run).canonical canonical
  cases choice with
  | assign var value =>
    obtain ⟨d, e, -, there, filled, left⟩ := Narrowing.restrict_eq_ok canonical run
    refine ⟨e, there, (formed.int? there).value?_eq_some_iff.2 fun other => ⟨fun inside => ?_, ?_⟩⟩
    · have := (left other).1 inside
      omega
    · rintro rfl
      obtain ⟨value, inside⟩ := filled
      have := (left value).1 inside
      obtain rfl : value = other := by omega
      exact inside
  | takeIn var element =>
    obtain ⟨d, e, -, there, inside, -, -⟩ := Narrowing.includeElement_eq_ok run
    exact ⟨e, there, inside⟩
  | leaveOut var element =>
    obtain ⟨d, e, -, there, outside, -, -⟩ := Narrowing.excludeElement_eq_ok run
    exact ⟨e, there, outside⟩

/-- Committing a choice spares the tables that are as it says. -/
theorem spares_operation (canonical : p.Canonical) (obeys : p.Obeys choice) :
    Narrowing.Spares p choice.operation fun _ => True := by
  intro t below
  have sound := below.sound
  cases choice with
  | assign var value =>
    have only (other : Int) : p.Holds var other ↔ other = value := obeys.holds_iff canonical
    obtain ⟨d, here, inside⟩ := below.within.holds ((only value).2 rfl)
    obtain ⟨changed, u, run⟩ :=
      Narrowing.exists_restrict_eq_ok sound.canonical here inside le_rfl le_rfl
    have narrows := (carries_operation (.assign var value)).narrows sound.canonical run
    refine ⟨changed, u, run, ⟨narrows.sound sound, ?_⟩, trivial⟩
    refine Narrowing.within_of_restrict sound.canonical below.within (fun other holds => ?_) run
    obtain rfl := (only other).1 holds
    exact ⟨le_rfl, le_rfl⟩
  | takeIn var element =>
    obtain ⟨f, here, inside⟩ := obeys
    obtain ⟨d, there, inner⟩ := below.within.larger (DomainTable.set?_eq_some_iff.1 here)
    cases d with
    | int d => exact inner.elim
    | set d =>
      have there := DomainTable.set?_eq_some_iff.2 there
      have possible := inner.2 element ((canonical.set? here).nested element inside)
      obtain ⟨changed, u, run⟩ := Narrowing.exists_includeElement_eq_ok there possible
      have narrows := (carries_operation (.takeIn var element)).narrows sound.canonical run
      refine ⟨changed, u, run, ⟨narrows.sound sound, ?_⟩, trivial⟩
      refine Narrowing.within_of_includeElement sound.canonical below.within ?_ run
      intro g found
      obtain rfl := Option.some.inj (here.symm.trans found)
      exact inside
  | leaveOut var element =>
    obtain ⟨f, here, outside⟩ := obeys
    obtain ⟨d, there, inner⟩ := below.within.larger (DomainTable.set?_eq_some_iff.1 here)
    cases d with
    | int d => exact inner.elim
    | set d =>
      have there := DomainTable.set?_eq_some_iff.2 there
      have free : element ∉ d.glb := fun inside =>
        outside ((canonical.set? here).nested element (inner.1 element inside))
      obtain ⟨changed, u, run⟩ := Narrowing.exists_excludeElement_eq_ok there free
      have narrows := (carries_operation (.leaveOut var element)).narrows sound.canonical run
      refine ⟨changed, u, run, ⟨narrows.sound sound, ?_⟩, trivial⟩
      refine Narrowing.within_of_excludeElement sound.canonical below.within ?_ run
      intro g found
      obtain rfl := Option.some.inj (here.symm.trans found)
      exact outside

end Choice

/-! ## The improvement -/

def Narrowing.improvement (bound : Option VarId) (incumbent : Option Int) : Narrowing Bool :=
  match bound, incumbent with
  | some bound, some best => do
    let max ← require (Signed64.checked (best - 1))
    restrict bound Signed64.least max
  | _, _ => pure false

namespace Narrowing

variable {p t u : DomainTable} {bound : Option VarId} {incumbent : Option Int} {changed : Bool}

theorem improveOn_eq_narrow (s : Store) (bound : Option VarId) (incumbent : Option Int) :
    s.improveOn bound incumbent = s.narrow (improvement bound incumbent) := by
  cases bound with
  | none => rfl
  | some var =>
    cases incumbent with
    | none => rfl
    | some best =>
      simp only [Store.improveOn]
      cases checked : Signed64.checked (best - 1) with
      | none =>
        simp only [Store.narrow, improvement, bind_apply, checked]
        rfl
      | some max =>
        simp only [Store.restrictMax, Store.narrow, improvement, bind_apply, checked]
        rfl

theorem carries_improvement (bound : Option VarId) (incumbent : Option Int) :
    Carries false (improvement bound incumbent) := by
  cases bound with
  | none => exact carries_pure false
  | some var =>
    cases incumbent with
    | none => exact carries_pure false
    | some best => exact .after_read (reads_require _) fun max => carries_restrict var _ max

theorem improves_of_improvement (canonical : t.Canonical)
    (run : improvement bound incumbent t = .ok changed u) : u.Improves bound incumbent := by
  rintro var best rfl rfl value ⟨e, there, inside⟩
  obtain ⟨max, w, lower, run⟩ := bind_eq_ok.1 run
  obtain ⟨fits, rfl⟩ := require_eq_ok.1 lower
  obtain ⟨-, rfl⟩ := Signed64.checked_eq_some_iff.1 fits
  obtain ⟨d, f, -, found, -, left⟩ := restrict_eq_ok canonical run
  obtain rfl := Option.some.inj (there.symm.trans found)
  have := (left value).1 inside
  omega

/-- Demanding an improvement spares the tables that improve. -/
theorem spares_improvement (sound : p.Sound) (improves : p.Improves bound incumbent)
    (present : ∀ var best, bound = some var → incumbent = some best → ∃ value, p.Holds var value)
    (inRange : ∀ var best, bound = some var → incumbent = some best → Signed64.InRange best) :
    Spares p (improvement bound incumbent) fun _ => True := by
  cases bound with
  | none => exact spares_pure trivial
  | some var =>
    cases incumbent with
    | none => exact spares_pure trivial
    | some best =>
      obtain ⟨value, d, here, inside⟩ := present var best rfl rfl
      obtain ⟨low, high, least, greatest⟩ :=
        (sound.canonical.int? here).exists_bounds ⟨value, inside⟩
      have spans : p.Spans var low high := ⟨d, here, least, greatest⟩
      obtain ⟨lowest, highest⟩ := spans.holds sound.canonical
      have under := improves var best rfl rfl high highest
      have first := sound.inRange var low lowest
      have last := sound.inRange var high highest
      have fits : Signed64.checked (best - 1) = some (best - 1) := by
        refine Signed64.checked_eq_some_iff.2 ⟨?_, rfl⟩
        have := inRange var best rfl rfl
        unfold Signed64.InRange at *
        omega
      apply (spares_require fits).bind
      rintro _ rfl
      exact spares_restrict sound.canonical spans first.1 (by omega)

end Narrowing

/-! ## The whole attempt -/

namespace Store

variable {s : Store} {choice : Choice} {bound : Option VarId} {incumbent : Option Int}

structure Attempted (s : Store) (choice : Choice) (bound : Option VarId)
    (incumbent : Option Int) (outcome : Bool × Store) : Prop where
  store : outcome.2 = { s with domains := outcome.2.domains }
  breaks : s.domains.Breaks outcome.2.domains
  success : outcome.1 = true → s.domains.Narrows outcome.2.domains ∧
    outcome.2.domains.Stable s.rules ∧ outcome.2.domains.Obeys choice ∧
    outcome.2.domains.Improves bound incumbent

theorem attempted (canonical : s.domains.Canonical) (choice : Choice) (bound : Option VarId)
    (incumbent : Option Int) :
    s.Attempted choice bound incumbent (s.attempt choice bound incumbent) := by
  unfold attempt
  rw [Choice.commit_eq_narrow]
  have committed := choice.carries_operation s.domains canonical
  unfold Store.narrow
  cases run₁ : choice.operation s.domains with
  | error e t =>
    rw [run₁] at committed
    exact ⟨rfl, committed, nofun⟩
  | ok changed t =>
    rw [run₁] at committed
    obtain ⟨narrows₁, -, -⟩ := committed
    have canonical₁ := narrows₁.canonical canonical
    have improved := Narrowing.carries_improvement bound incumbent t canonical₁
    simp only [Narrowing.improveOn_eq_narrow, Store.narrow]
    cases run₂ : Narrowing.improvement bound incumbent t with
    | error e u =>
      rw [run₂] at improved
      exact ⟨rfl, narrows₁.breaks improved, nofun⟩
    | ok changed' u =>
      rw [run₂] at improved
      obtain ⟨narrows₂, -, -⟩ := improved
      have canonical₂ := narrows₂.canonical canonical₁
      simp only [Store.consistency]
      cases run₃ : u.propagateAll (s.constraints.map Imposed.constraint) with
      | mk consistent w =>
        cases consistent with
        | false =>
          refine ⟨rfl, (narrows₁.trans narrows₂).breaks ?_, nofun⟩
          exact DomainTable.breaks_of_propagateAll canonical₂ run₃
        | true =>
          obtain ⟨narrows₃, stable⟩ := DomainTable.narrows_of_propagateAll canonical₂ run₃
          have narrows := (narrows₁.trans narrows₂).trans narrows₃
          refine ⟨rfl, .narrowed narrows, fun _ => ⟨narrows, stable, ?_, ?_⟩⟩
          · have later := narrows₂.trans narrows₃
            have obeys := Choice.obeys_of_operation canonical run₁
            apply obeys.of_within (later.canonical canonical₁) canonical₁ later.within
            intro d here
            obtain ⟨e, there, -⟩ := later.within.larger here
            exact later.hasValue there here (obeys.hasValue canonical₁ there)
          · exact (Narrowing.improves_of_improvement canonical₁ run₂).of_within narrows₃.within

/-- Above a settled table that is as the choice says and improves, the attempt succeeds and
stays above that table. -/
theorem attempt_of_settled {p : DomainTable} (settled : p.Settled s.rules)
    (below : p.Below s.domains) (obeys : p.Obeys choice) (improves : p.Improves bound incumbent)
    (present : ∀ var best, bound = some var → incumbent = some best → ∃ value, p.Holds var value)
    (inRange : ∀ var best, bound = some var → incumbent = some best → Signed64.InRange best) :
    (s.attempt choice bound incumbent).1 = true ∧
      p.Below (s.attempt choice bound incumbent).2.domains := by
  have canonical := settled.sound.canonical
  obtain ⟨changed, t, run₁, below₁, -⟩ := Choice.spares_operation canonical obeys s.domains below
  obtain ⟨changed', u, run₂, below₂, -⟩ :=
    Narrowing.spares_improvement settled.sound improves present inRange t below₁
  obtain ⟨w, run₃, below₃⟩ := settled.propagateAll below₂
  have outcome : s.attempt choice bound incumbent = (true, { s with domains := w }) := by
    unfold attempt
    rw [Choice.commit_eq_narrow]
    simp only [Store.narrow, run₁, Narrowing.improveOn_eq_narrow, run₂, Store.consistency]
    rw [show u.propagateAll (s.constraints.map Imposed.constraint) = (true, w) from run₃]
  rw [outcome]
  exact ⟨rfl, below₃⟩

end Store

end StagedSearch
