/-
# What a listener reports

The solutions that a listener makes of the stores that it accepts, and where each of them goes:
it is counted and numbered, kept if solutions are retained, sent over the channel, told to the
reporter, and the last one is remembered. A solution has the values of its store, so that it
can be read as an assignment.
-/

import StagedSearch.Proofs.Search.Explored

namespace StagedSearch

/-- A reporter after it was told of several solutions, each with the store that held it. -/
def Reporter.tellAll {ρ : Type} [Reporter ρ] (reporter : ρ) (told : List (Store × Solution)) : ρ :=
  told.foldl (fun r entry => (Reporter.report r entry.1 entry.2).2) reporter

structure Listener.Reports {ρ : Type} [Reporter ρ] (before after : Listener ρ)
    (solutions : List Solution) : Prop where
  count : after.count = before.count + solutions.length
  numbers : solutions.map Solution.number = List.range' (before.count + 1) solutions.length
  kept : after.kept = if before.retain then before.kept ++ solutions.toArray else before.kept
  last : after.last = solutions.getLast?.or before.last
  channel : after.channel = before.channel.map fun c => solutions.foldl Channel.send c
  told : ∃ stores : List Store, stores.map Store.decidedValues = solutions.map Solution.values ∧
    after.reporter = before.reporter.map (Reporter.tellAll · (stores.zip solutions))

/-! ## Solutions as assignments -/

namespace Store

theorem lookup_filterMap {α β : Type} [BEq α] [LawfulBEq α] (value : α → Option β) (keys : List α)
    (key : α) : (keys.filterMap fun k => (value k).map (k, ·)).lookup key =
      if key ∈ keys then value key else none := by
  induction keys with
  | nil => rfl
  | cons k rest ih =>
    rw [List.filterMap_cons]
    by_cases same : key = k
    · subst same
      cases given : value key with
      | none =>
        simp only [Option.map_none, ih, given]
        simp
      | some v => simp
    · have other : (key == k) = false := by simpa using same
      cases value k with
      | none => simp [ih, same]
      | some v => simp [List.lookup_cons, other, ih, same]

/-- Looking up what a store has decided gives its values. -/
theorem lookup_decidedValues (u : Store) (var : VarId) :
    u.decidedValues.lookup var = u.value? var := by
  unfold decidedValues
  rw [lookup_filterMap]
  split
  · rfl
  · rename_i outside
    have undeclared : u.declaration? var = none := by
      rw [declaration?, Array.getElem?_eq_none_iff]
      by_contra inside
      refine outside (List.mem_map.2 ⟨var.index, List.mem_range.2 ?_, rfl⟩)
      exact Nat.lt_of_not_le inside
    simp [value?, undeclared]

end Store

namespace Solution

/-- The solution that a store holds has the values of the store. -/
@[simp]
theorem value?_capture (u : Store) (number : Nat) (cost : Option Int) :
    (capture u number cost).value? = u.value? := by
  funext var
  exact u.lookup_decidedValues var

end Solution

/-! ## The solutions of some stores -/

namespace Listener

variable {ρ : Type} [Reporter ρ] {l : Listener ρ}

/-- The solutions that a listener makes of stores, the first one first. -/
def solutions (l : Listener ρ) : List Store → List Solution
  | [] => []
  | u :: rest => l.nextSolution u :: (l.accept u).2.solutions rest

@[simp]
theorem length_solutions (l : Listener ρ) (leaves : List Store) :
    (l.solutions leaves).length = leaves.length := by
  induction leaves generalizing l with
  | nil => rfl
  | cons u rest ih => simp [solutions, ih]

/-- The first stores make the first solutions. -/
theorem solutions_prefix (l : Listener ρ) {first all : List Store} (begins : first <+: all) :
    l.solutions first <+: l.solutions all := by
  obtain ⟨later, rfl⟩ := begins
  induction first generalizing l with
  | nil => exact List.nil_prefix
  | cons u rest ih => exact (List.prefix_cons_inj _).2 (ih (l.accept u).2)

/-- Each solution has the values of its store. -/
theorem values_solutions (l : Listener ρ) (leaves : List Store) :
    (l.solutions leaves).map Solution.values = leaves.map Store.decidedValues := by
  induction leaves generalizing l with
  | nil => rfl
  | cons u rest ih => simp [solutions, ih, nextSolution, Solution.capture]

/-- Each solution gives the variables the values that its store gives them. -/
theorem value?_solutions (l : Listener ρ) (leaves : List Store) :
    (l.solutions leaves).map Solution.value? = leaves.map Store.value? := by
  induction leaves generalizing l with
  | nil => rfl
  | cons u rest ih => simp [solutions, ih, nextSolution]

/-- What accepting one store does to what is reported. -/
theorem accept_fields (l : Listener ρ) (u : Store) :
    (l.accept u).2.count = l.count + 1 ∧ (l.accept u).2.cost = l.cost ∧
      (l.accept u).2.retain = l.retain ∧
      (l.accept u).2.kept = (if l.retain then l.kept.push (l.nextSolution u) else l.kept) ∧
      (l.accept u).2.last = some (l.nextSolution u) ∧
      (l.accept u).2.channel = l.channel.map (·.send (l.nextSolution u)) ∧
      (l.accept u).2.reporter =
        l.reporter.map fun r => (Reporter.report r u (l.nextSolution u)).2 := by
  unfold accept tell
  cases l.reporter with
  | none => exact ⟨rfl, rfl, rfl, rfl, rfl, rfl, rfl⟩
  | some r => exact ⟨rfl, rfl, rfl, rfl, rfl, rfl, rfl⟩

/-- The costs that are recorded are those that the stores have decided. -/
theorem costs_solutions (l : Listener ρ) (leaves : List Store) :
    (l.solutions leaves).filterMap Solution.cost =
      leaves.filterMap fun u => (l.cost.bind u.value?).bind Value.asInt? := by
  induction leaves generalizing l with
  | nil => rfl
  | cons u rest ih =>
    rw [solutions, List.filterMap_cons, List.filterMap_cons, ih, (l.accept_fields u).2.1]
    rfl

/-- The solutions are numbered from the count on, each with the cost that its store has decided. -/
theorem solutions_eq (l : Listener ρ) (leaves : List Store) :
    l.solutions leaves = (leaves.zipIdx (l.count + 1)).map fun (u, number) =>
      Solution.capture u number ((l.cost.bind u.value?).bind Value.asInt?) := by
  induction leaves generalizing l with
  | nil => rfl
  | cons u rest ih =>
    obtain ⟨count, cost, -⟩ := l.accept_fields u
    rw [solutions, ih, count, cost, List.zipIdx_cons, List.map_cons]
    rfl

/-- A listener that accepts stores one by one reports their solutions. -/
theorem reports_acceptAll (l : Listener ρ) (leaves : List Store) :
    l.Reports (l.acceptAll leaves) (l.solutions leaves) := by
  induction leaves generalizing l with
  | nil =>
    refine ⟨rfl, rfl, ?_, rfl, ?_, [], rfl, ?_⟩
    · simp [acceptAll, solutions]
    · cases here : l.channel <;> simp [acceptAll, solutions, here]
    · cases here : l.reporter <;> simp [acceptAll, solutions, Reporter.tellAll, here]
  | cons u rest ih =>
    obtain ⟨count, -, retain, kept, last, channel, reporter⟩ := l.accept_fields u
    have later := ih (l.accept u).2
    have step : l.acceptAll (u :: rest) = (l.accept u).2.acceptAll rest := rfl
    rw [step]
    refine ⟨?_, ?_, ?_, ?_, ?_, ?_⟩
    · rw [later.count, count, solutions, List.length_cons]
      omega
    · rw [solutions, List.map_cons, later.numbers, count, List.length_cons, List.range'_succ]
      rfl
    · rw [later.kept, retain, kept, solutions]
      cases l.retain <;> simp
    · rw [later.last, last, solutions, List.getLast?_cons]
      cases ((l.accept u).2.solutions rest).getLast? <;> rfl
    · rw [later.channel, channel, Option.map_map, solutions]
      rfl
    · obtain ⟨stores, values, told⟩ := later.told
      refine ⟨u :: stores, ?_, ?_⟩
      · rw [List.map_cons, values, solutions, List.map_cons]
        rfl
      · rw [told, reporter, Option.map_map, solutions, List.zip_cons_cons]
        rfl

/-- The last solution is that of the last store, with the value of the cost there. -/
theorem last_acceptAll (l : Listener ρ) (leaves : List Store) (u : Store) :
    (l.acceptAll (leaves ++ [u])).last =
      some (Solution.capture u (l.count + leaves.length + 1)
        ((l.cost.bind u.value?).bind Value.asInt?)) := by
  induction leaves generalizing l with
  | nil =>
    obtain ⟨-, -, -, -, last, -, -⟩ := l.accept_fields u
    exact last
  | cons w rest ih =>
    obtain ⟨count, cost, -⟩ := l.accept_fields w
    have step : l.acceptAll (w :: rest ++ [u]) = (l.accept w).2.acceptAll (rest ++ [u]) := rfl
    rw [step, ih, count, cost, List.length_cons, Nat.add_right_comm l.count, ← Nat.add_assoc]

end Listener

end StagedSearch
