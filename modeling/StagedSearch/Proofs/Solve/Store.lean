/-
# What a solve leaves of the store

A run of the engine puts the store back, over any tree and in whichever way it ends. So all that
a solve can leave behind is what building does for it: a maximization declares the negated cost
and imposes its constraint. This holds of solves that fail as well, wherever they fail.
-/

import StagedSearch.Proofs.Solve.Steps

namespace StagedSearch

namespace SearchSpec

variable {ρ : Type} [Reporter ρ]

/-- Building that comes to no tree leaves the store as it is. -/
theorem store_build_of_ne_tree {spec : SearchSpec} {names : Names} {s : Store}
    {context : Context ρ} (none : ∀ t, (spec.build names s context).outcome ≠ .ok (.tree t)) :
    (spec.build names s context).store = s := by
  unfold build at none ⊢
  cases compiled : spec.stages names s context.seeds with
  | error e seeds => rfl
  | ok stages seeds =>
    rw [compiled] at none
    simp only at none ⊢
    split
    · rfl
    · rename_i nonempty
      rw [if_neg nonempty] at none
      unfold chain at none ⊢
      cases wired : spec.wireCost s with
      | error e => rfl
      | ok made =>
        rw [wired] at none
        exact absurd rfl (none _)

end SearchSpec

namespace Solving

variable {request : SolveRequest} {spec : SearchSpec} {session : Session}

/-- Searching does to the store what building does. -/
theorem store_left_search (formed : session.store.Formed) :
    (left (search request spec) session).store = (built request spec session).store := by
  unfold left
  cases outcome : (built request spec session).outcome with
  | error e =>
    rw [search_of_error outcome]
    rfl
  | ok what =>
    cases what with
    | trivial =>
      rw [search_of_trivial outcome]
      rfl
    | tree t =>
      rw [search_of_tree outcome rfl]
      obtain ⟨objective, wired, ready⟩ := SearchSpec.exists_ready_of_build formed outcome
      exact SearchState.store_run ready.running.formed t

/-- Closing adds nothing to what opening and searching do to the store. -/
theorem store_left_solve_eq :
    (left (solve request spec) session).store =
      (left (opening request spec >>= fun _ => search request spec) session).store := by
  have steps : left (solve request spec) session =
      left ((opening request spec >>= fun started => search request spec >>= fun searched =>
        closing request session.store started searched : Solving SolveOutcome)) session := by
    unfold left
    rw [solve_eq]
  rw [steps, left_bind, left_bind]
  cases opening request spec session with
  | error e opened => rfl
  | ok started opened =>
    exact part_left_bind Session.store _
      (fun searched => (keeps_closing request _ started searched).store) opened

/-- A solve that does not come to a run leaves the store as it was. -/
theorem store_left_solve_of_none (formed : session.store.Formed)
    (none : begun? request spec session = none) :
    (left (solve request spec) session).store = session.store := by
  rw [store_left_solve_eq, left_bind]
  cases opens : opening request spec session with
  | error e opened => exact left_of_error opens ▸ (keeps_opening request spec).store session
  | ok started opened =>
    have kept := store_of_opening opens
    simp only
    rw [store_left_search (kept.symm ▸ formed), ← kept]
    refine SearchSpec.store_build_of_ne_tree fun t outcome => ?_
    cases none.symm.trans (begun?_of_tree opens outcome)

/-- A solve that comes to a run leaves the store on which the run begins. -/
theorem store_left_solve_of_some (formed : session.store.Formed) {t : SearchTree}
    {st : SearchState ProtocolReporter} (begun : begun? request spec session = some (t, st)) :
    (left (solve request spec) session).store = st.store := by
  obtain ⟨started, opened, opens, outcome, rfl⟩ := exists_of_begun? begun
  rw [store_left_solve_eq, left_bind, opens]
  exact store_left_search (store_of_opening opens ▸ formed)

/-- A run leaves the store as it found it. A solve that returns or fails leaves it so as well,
unless it runs a maximization: then there is one more variable, the negated cost with the negated
bounds of the cost, and one more constraint, which says so and is imposed at the level of the
store. -/
theorem store_left_of_reachable {s : Store} (reached : s.Reachable) :
    (∀ (ρ : Type) [Reporter ρ] (t : SearchTree) (st : SearchState ρ), st.store = s →
      (t.run st).2.store = s) ∧
    ∀ (request : SolveRequest) (spec : SearchSpec) (session : Session), session.store = s →
      (spec.goal ≠ .maximize ∨ begun? request spec session = none →
        (left (solve request spec) session).store = s) ∧
      (spec.goal = .maximize → begun? request spec session ≠ none →
        ∃ cost v d low high, spec.cost = some cost ∧ s.declaration? cost = some v ∧
          s.domains.int? cost = some d ∧ d.min? = some low ∧ d.max? = some high ∧
          (left (solve request spec) session).store =
            ((s.addInt ("-" ++ v.name) (-high) (-low)).2.addConstraint
              (.negation ⟨s.size⟩ cost))) := by
  have formed := reached.formed
  refine ⟨fun ρ _ t st same => ?_, fun request spec session same => ?_⟩
  · subst same
    exact SearchState.store_run formed t
  · subst same
    cases begun : begun? request spec session with
    | none => exact ⟨fun _ => store_left_solve_of_none formed begun, fun _ some => absurd rfl some⟩
    | some run =>
      obtain ⟨t, st⟩ := run
      rw [store_left_solve_of_some formed begun]
      obtain ⟨started, opened, opens, outcome, rfl⟩ := exists_of_begun? begun
      rw [← store_of_opening opens] at formed ⊢
      obtain ⟨objective, wired, -⟩ := SearchSpec.exists_ready_of_build formed outcome
      rcases SearchSpec.wireCost_cases wired with
        ⟨goal, -, store⟩ | ⟨cost, goal, -, -, store⟩ |
        ⟨cost, v, d, low, high, goal, named, declared, here, least, greatest, -, -, -, store⟩
      · exact ⟨fun _ => store, fun maximize => by rw [goal] at maximize; cases maximize⟩
      · exact ⟨fun _ => store, fun maximize => by rw [goal] at maximize; cases maximize⟩
      · refine ⟨fun other => ?_, fun _ _ =>
          ⟨cost, v, d, low, high, named, declared, here, least, greatest, store⟩⟩
        rcases other with other | other
        · exact absurd goal other
        · cases other

/-- A maximization in a store with an open level, whose sink fails after a few bytes. -/
theorem store_left_of_reachable_open :
    ∃ (s : Store) (request : SolveRequest) (spec : SearchSpec) (session : Session),
      s.Reachable ∧ s.level = 1 ∧ session.store = s ∧ spec.goal = .maximize ∧
      begun? request spec session ≠ none ∧
      (left (solve request spec) session).store =
        ((s.addInt "-x" (-3) 0).2.addConstraint (.negation ⟨2⟩ ⟨0⟩)) := by
  let s := StoreOperation.applyAll Store.empty
    [.declareInt "x" 0 3, .pushLevel, .declareBool "b", .impose (.lessThan ⟨1⟩ ⟨0⟩)]
  let request : SolveRequest := ⟨Names.empty, { SolveOptions.default with timeoutMs := 5 }, false⟩
  let spec : SearchSpec :=
    ⟨.maximize, some ⟨0⟩, some (.leaf .int ⟨[⟨0⟩], some .inputOrder, some .max, .complete⟩)⟩
  let session : Session :=
    ⟨s, ⟨ByteArray.empty, .bytes 5, none⟩, Clock.ofStep 1000, Generator.ofSeed 0, none,
      Journal.silent⟩
  have reached : s.Reachable := Store.Reachable.empty.applyAll (by decide)
  have begun : begun? request spec session ≠ none := Option.isSome_iff_ne_none.1 rfl
  obtain ⟨-, maximize⟩ := (store_left_of_reachable reached).2 request spec session rfl
  obtain ⟨cost, v, d, low, high, named, declared, here, least, greatest, store⟩ :=
    maximize rfl begun
  obtain rfl : ⟨0⟩ = cost := Option.some.inj named
  obtain rfl : ⟨"x", .int⟩ = v := Option.some.inj declared
  obtain rfl : IntDomain.interval 0 3 = d := Option.some.inj here
  obtain rfl : 0 = low := Option.some.inj least
  obtain rfl : 3 = high := Option.some.inj greatest
  exact ⟨s, request, spec, session, reached, rfl, rfl, rfl, begun, store⟩

end Solving

end StagedSearch
