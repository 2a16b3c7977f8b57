/-
# What an exhausted run shows

A run that has left nothing out has met every satisfying assignment of the store, unless that
does not improve on the incumbent in the end. Meeting an assignment means to come to a leaf that
agrees with it at the labelled variables; other variables need not be decided there, but they
still hold the values of the assignment.

So without a leaf nothing satisfies the store, and no satisfying assignment has a lower bound
than the incumbent in the end. Nothing here asks that the nodes label all variables.
-/

import StagedSearch.Proofs.Search.Enumeration

namespace StagedSearch

namespace Store

variable {u : Store} {var : VarId} {value : Int} {leaves : List Store}

/-! ## Incumbents -/

/-- Improving on an incumbent over and over leads to one that is no greater. -/
theorem Improving.exists_le {best : Int} (improving : Improving (some var) (some best) leaves)
    (canonical : ∀ u ∈ leaves, u.domains.Canonical) :
    ∃ last, advanceAll (some var) (some best) leaves = some last ∧ last ≤ best := by
  induction leaves generalizing best with
  | nil => exact ⟨best, rfl, le_rfl⟩
  | cons u rest ih =>
    obtain ⟨improves, later⟩ := improving
    have step : advanceAll (some var) (some best) (u :: rest) =
      advanceAll (some var) (advance (some var) (some best) u) rest := rfl
    have further := fun w member => canonical w (List.mem_cons_of_mem u member)
    rw [step]
    cases reached : SearchState.boundValue? u (some var) with
    | none =>
      rw [advance, reached] at later ⊢
      exact ih later further
    | some next =>
      rw [advance, reached] at later ⊢
      obtain ⟨last, equal, le⟩ := ih later further
      obtain ⟨var', same, holds⟩ := holds_of_boundValue? (canonical u (by simp)) reached
      obtain rfl := Option.some.inj same
      exact ⟨last, equal, le.trans (improves var best rfl rfl next holds).le⟩

/-- The last incumbent is no greater than the bound of any leaf. -/
theorem Improving.exists_le_of_mem {incumbent : Option Int}
    (improving : Improving (some var) incumbent leaves)
    (canonical : ∀ u ∈ leaves, u.domains.Canonical) (member : u ∈ leaves)
    (reached : SearchState.boundValue? u (some var) = some value) :
    ∃ last, advanceAll (some var) incumbent leaves = some last ∧ last ≤ value := by
  induction leaves generalizing incumbent with
  | nil => cases member
  | cons w rest ih =>
    have further := fun w' member => canonical w' (List.mem_cons_of_mem w member)
    rcases List.mem_cons.1 member with rfl | member
    · have later := improving.2
      have step : advanceAll (some var) incumbent (u :: rest) =
        advanceAll (some var) (some value) rest := by
        rw [advanceAll, List.foldl_cons, advance, reached]
        rfl
      rw [advance, reached] at later
      rw [step]
      exact later.exists_le further
    · exact ih improving.2 further member

/-- A store has a bound that is no greater than any value that it holds there. -/
theorem exists_boundValue?_le (canonical : u.domains.Canonical)
    (holds : u.domains.Holds var value) :
    ∃ least, SearchState.boundValue? u (some var) = some least ∧ least ≤ value := by
  obtain ⟨d, here, inside⟩ := holds
  have formed := canonical.int? here
  simp only [SearchState.boundValue?, Option.bind_eq_bind, Option.bind_some, here]
  cases only : d.value? with
  | some v =>
    obtain rfl := (formed.value?_eq_some_iff.1 only value).1 inside
    exact ⟨value, rfl, le_rfl⟩
  | none =>
    obtain ⟨low, high, least, -⟩ := formed.exists_bounds ⟨value, inside⟩
    exact ⟨low, least, (formed.min?_eq_some_iff.1 least).2 value inside⟩

end Store

namespace SearchState

variable {ρ : Type} [Reporter ρ] {t : SearchTree} {bound : Option VarId} {st : SearchState ρ}
  {leaves : List Store} {assignment : Assignment}

/-- What is known of a run that has left nothing out, and began without an incumbent on a store
that declares the labelled variables. -/
structure Exhausts (t : SearchTree) (bound : Option VarId) (st : SearchState ρ)
    (leaves : List Store) : Prop where
  explored : Explored bound (t.varsFrom 0) st (t.run st).2 leaves
  covers : st.store.Covers (t.varsFrom 0) bound (t.run st).2.context.incumbent? leaves
  formed : st.store.Formed
  fresh : st.context.incumbent? = none
  declared : ∀ var ∈ t.varsFrom 0, ∃ v, st.store.declaration? var = some v

namespace Exhausts

/-- A satisfying assignment that improves on the incumbent in the end was met. -/
theorem exists_leaf (exhausts : Exhausts t bound st leaves)
    (satisfies : st.store.Satisfies assignment)
    (improves : ∀ var best, bound = some var → (t.run st).2.context.incumbent? = some best →
      ∀ value, assignment.int? var = some value → value < best) :
    ∃ u ∈ leaves, (∀ var ∈ t.varsFrom 0, u.value? var = assignment var) ∧
      ∀ var value, assignment.int? var = some value → u.domains.Holds var value := by
  obtain ⟨explored, covers, formed, -, declared⟩ := exhausts
  obtain ⟨p, shows_, settled, within⟩ := satisfies.exists_settled formed
  have canonical := settled.sound.canonical
  have single : ∀ var ∈ t.varsFrom 0, p.Decided var := by
    intro var member
    obtain ⟨v, declared⟩ := declared var member
    exact formed.decided_of_shows shows_ within declared
  obtain ⟨u, member, below⟩ := covers p settled within single fun var best here reached value
    holds => improves var best here reached value ((shows_.mirrors.holds_iff canonical).1 holds)
  have leaf := explored.leaf u member
  refine ⟨u, member, fun var labelled => ?_, fun var value given => ?_⟩
  · exact leaf.value?_eq_of_decided formed satisfies shows_ settled.sound settled.filled below
      (leaf.decided var labelled)
  · exact below.holds ((shows_.mirrors.holds_iff canonical).2 given)

/-- Without a leaf the store cannot be satisfied. -/
theorem not_satisfiable (exhausts : Exhausts t bound st []) : ¬ st.store.Satisfiable := by
  rintro ⟨assignment, satisfies⟩
  have incumbent : (t.run st).2.context.incumbent? = none :=
    exhausts.explored.incumbent.trans exhausts.fresh
  obtain ⟨u, member, -⟩ := exhausts.exists_leaf satisfies fun var best _ reached => by
    rw [incumbent] at reached
    cases reached
  cases member

/-- The incumbent in the end is no greater than the bound of any satisfying assignment. -/
theorem exists_incumbent_le {bound : VarId} (exhausts : Exhausts t (some bound) st leaves)
    (satisfies : st.store.Satisfies assignment) {value : Int}
    (given : assignment.int? bound = some value) :
    ∃ best, (t.run st).2.context.incumbent? = some best ∧ best ≤ value := by
  by_contra none
  -- If the assignment improves on the incumbent, then it was met by a leaf that holds it.
  obtain ⟨u, member, -, holds⟩ := exhausts.exists_leaf satisfies (by
    rintro var best ⟨⟩ reached other given'
    obtain rfl := Option.some.inj (given.symm.trans given')
    by_contra above
    exact none ⟨best, reached, not_lt.1 above⟩)
  have explored := exhausts.explored
  have canonical (w : Store) (inside : w ∈ leaves) : w.domains.Canonical :=
    (explored.sound w inside).canonical
  obtain ⟨least, reached, below⟩ :=
    Store.exists_boundValue?_le (canonical u member) (holds bound value given)
  obtain ⟨best, last, le⟩ := explored.improving.exists_le_of_mem canonical member reached
  exact none ⟨best, explored.incumbent.trans last, le.trans below⟩

end Exhausts

end SearchState

end StagedSearch
