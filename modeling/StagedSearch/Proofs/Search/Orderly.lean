/-
# What every piece of search keeps

Whatever the tree, the listener and the clock are, a piece of search puts the store back, on
every way out of it; it ends the search only because the listener asked for that or the time
was up; and it lets the search go on if nothing disturbs it.

Nothing is assumed of the tree here, neither that its nodes form a chain nor that its variables
are declared. Each step keeps these facts, whether a candidate is refused, entered or left out,
so the trials of a frame do, by their recursion, and the frames, by induction on their number.
-/

import StagedSearch.Proofs.Search.Running

namespace StagedSearch

/-- Accepting a store keeps a listener endless, and it goes on. -/
theorem Listener.Endless.accept {ρ : Type} [Reporter ρ] {l : Listener ρ} (endless : l.Endless)
    (s : Store) : (l.accept s).1 = true ∧ (l.accept s).2.Endless := by
  obtain ⟨limit, fault, reporter⟩ := endless
  unfold Listener.accept
  simp only [limit]
  cases told : l.reporter with
  | none =>
    simp only [tell, fault]
    exact ⟨rfl, endless_of_reporter_none rfl rfl rfl⟩
  | some r =>
    obtain ⟨states, here, keeps⟩ := reporter r told
    obtain ⟨silent, there⟩ := keeps r here s (l.nextSolution s)
    simp only [tell, silent, fault]
    refine ⟨rfl, rfl, rfl, fun r' equal => ?_⟩
    cases equal
    exact ⟨states, there, keeps⟩

/-- A listener asks to stop at its limit, or because a report has failed. -/
theorem Listener.limitReached_or_fault_of_accept {ρ : Type} [Reporter ρ] (l : Listener ρ)
    (s : Store) (stops : (l.accept s).1 = false) :
    (l.accept s).2.limitReached = true ∨ (l.accept s).2.fault.isSome = true := by
  simp only [Listener.accept, Bool.and_eq_false_iff, Bool.not_eq_eq_eq_not, Bool.not_false,
    Option.isNone_eq_false_iff] at stops
  refine stops.imp_left fun limit => Eq.trans ?_ limit
  unfold Listener.accept tell
  cases l.reporter <;> rfl

namespace SearchState

variable {ρ : Type} [Reporter ρ] {t : SearchTree} {bound : Option VarId}
  {st st₁ st₂ st' : SearchState ρ} {flow : Flow} {outcome : Flow × SearchState ρ}

/-- What every piece of search keeps, in any tree. -/
structure Orderly (st : SearchState ρ) (outcome : Flow × SearchState ρ) : Prop where
  store : st.store.Formed → outcome.2.store = st.store
  stopped : outcome.1 = .stop → outcome.2.context.listener.limitReached = true ∨
    outcome.2.context.listener.fault.isSome = true
  undisturbed : Undisturbed st → outcome.1 = .proceed ∧ Undisturbed outcome.2

theorem Orderly.refl (st : SearchState ρ) : Orderly st (.proceed, st) :=
  ⟨fun _ => rfl, nofun, fun undisturbed => ⟨rfl, undisturbed⟩⟩

/-- Accounts that are kept before and after do not matter. -/
theorem Orderly.between (orderly : Orderly st₁ (flow, st₂)) (start : Quiet t st st₁)
    (finish : Quiet t st₂ st') : Orderly st (flow, st') where
  store formed := by
    show st'.store = st.store
    rw [finish.store, orderly.store (start.store ▸ formed), start.store]
  stopped stops := by
    show st'.context.listener.limitReached = true ∨ _
    rw [finish.listener]
    exact orderly.stopped stops
  undisturbed undisturbed := by
    obtain ⟨proceeds, after⟩ := orderly.undisturbed (undisturbed.of_quiet start)
    exact ⟨proceeds, after.of_quiet finish⟩

/-- A step that only keeps accounts lets the search go on. -/
theorem orderly_of_quiet (quiet : Quiet t st st') : Orderly st (.proceed, st') :=
  (Orderly.refl st).between (.refl t st) quiet

/-- One piece after another. -/
theorem Orderly.append (first : Orderly st (.proceed, st₁)) (second : Orderly st₁ outcome) :
    Orderly st outcome where
  store formed := by
    have back := first.store formed
    rw [second.store (back.symm ▸ formed), back]
  stopped := second.stopped
  undisturbed undisturbed := second.undisturbed (first.undisturbed undisturbed).2

/-- The time is up only in a search that is disturbed. -/
theorem orderly_timeOut {id : NodeId} (expired : st.expired id = (true, st₁)) :
    Orderly st (.timedOut, st₁.timeOut) where
  store _ := by
    have quiet := quiet_expired SearchTree.empty st id
    rw [expired] at quiet
    exact quiet.store
  stopped := nofun
  undisturbed undisturbed := by
    have inTime := undisturbed.expired id
    rw [expired] at inTime
    cases inTime

/-- Handing a solution to the listener ends the search only if the listener asks for it. -/
theorem orderly_acceptAt (st : SearchState ρ) (id : NodeId) (node : SearchNode) :
    Orderly st (st.acceptAt id node) := by
  obtain ⟨store, progress, listener⟩ := setIncumbent_keeps (st.handed id) node
  rw [acceptAt_eq]
  refine ⟨fun _ => store, fun stops => ?_, fun undisturbed => ?_⟩
  · show ((st.handed id).setIncumbent node).context.listener.limitReached = true ∨
      ((st.handed id).setIncumbent node).context.listener.fault.isSome = true
    rw [listener]
    refine st.context.listener.limitReached_or_fault_of_accept st.store ?_
    by_contra goesOn
    simp only [Bool.not_eq_false] at goesOn
    simp [goesOn] at stops
  · obtain ⟨goesOn, endless⟩ := undisturbed.endless.accept st.store
    have deadlines := (quiet_handed SearchTree.empty st id).deadlines undisturbed.deadlines
    exact ⟨if_pos goesOn, ⟨progress ▸ deadlines, listener ▸ endless⟩⟩

/-! ## Candidates -/

/-- Trying a candidate disturbs nothing. -/
theorem Undisturbed.decide (undisturbed : Undisturbed st) {id : NodeId} {choice : Choice}
    {consistent : Bool} (tried : st.decide id bound choice = (consistent, st₁)) :
    Undisturbed st₁ := by
  rw [decide_eq] at tried
  obtain ⟨-, rfl⟩ := Prod.mk.inj tried
  have deadlines := (tried_progress SearchTree.empty st id bound choice).2 undisturbed.deadlines
  split
  · exact ⟨deadlines, undisturbed.endless⟩
  · exact ⟨deadlines, undisturbed.endless⟩

/-- The search goes on after a candidate that was refused. -/
theorem Orderly.of_refused {id : NodeId} {choice : Choice}
    (refused : st.decide id bound choice = (false, st₁)) (orderly : Orderly st₁ outcome) :
    Orderly st outcome where
  store formed := by
    have quiet := quiet_decide formed refused SearchTree.empty
    rw [orderly.store (quiet.store.symm ▸ formed), quiet.store]
  stopped := orderly.stopped
  undisturbed undisturbed := orderly.undisturbed (undisturbed.decide refused)

/-- Closing the level of a candidate puts back the store in which it was tried. -/
theorem Orderly.of_entered {id : NodeId} {choice : Choice}
    (admitted : st.decide id bound choice = (true, st₁)) (orderly : Orderly st₁ (flow, st₂)) :
    Orderly st (flow, st₂.popLevel) where
  store formed := by
    have entered := entered_decide formed admitted SearchTree.empty
    show st₂.store.popLevel = st.store
    rw [orderly.store entered.descends.formed, entered.back]
  stopped := orderly.stopped
  undisturbed undisturbed := by
    obtain ⟨proceeds, after⟩ := orderly.undisturbed (undisturbed.decide admitted)
    exact ⟨proceeds, after.deadlines, after.endless⟩

/-- The trials of candidates, by their recursion. -/
theorem orderly_tryCandidates {below : PathState → SearchState ρ → Flow × SearchState ρ}
    (deeper : ∀ path st, Orderly st (below path st)) (id : NodeId) (node : SearchNode)
    (path : PathState) (size index : Nat) (candidates : Candidates) (st : SearchState ρ) :
    Orderly st (SearchTree.tryCandidates below id node path size index candidates st) := by
  have reading (st : SearchState ρ) : Quiet SearchTree.empty st (st.expired id).2 :=
    quiet_expired SearchTree.empty st id
  fun_induction SearchTree.tryCandidates below id node path size index candidates st with
  | case1 => exact .refl _
  | case2 _ _ st _ _ _ st₁ expired => exact orderly_timeOut expired
  | case3 _ _ st _ _ _ st₁ inTime =>
    have quiet := reading st
    rw [inTime] at quiet
    exact orderly_of_quiet quiet
  | case4 _ _ st choice _ _ st₁ inTime next _ st₂ refused ih =>
    have quiet := reading st
    rw [inTime] at quiet
    exact (orderly_of_quiet quiet).append (ih.of_refused refused)
  | case5 _ _ st choice _ _ st₁ inTime next _ st₂ admitted st₃ went ih =>
    have quiet := reading st
    rw [inTime] at quiet
    have inner := deeper next st₂
    rw [went] at inner
    exact (orderly_of_quiet quiet).append ((inner.of_entered admitted).append ih)
  | case6 _ _ st choice _ _ st₁ inTime next _ st₂ admitted flow st₃ _ went =>
    have quiet := reading st
    rw [inTime] at quiet
    have inner := deeper next st₂
    rw [went] at inner
    exact (orderly_of_quiet quiet).append (inner.of_entered admitted)

/-! ## Frames -/

theorem orderly_within {frames : SearchState ρ → Flow × SearchState ρ}
    (inner : ∀ st, Orderly st (frames st)) (st : SearchState ρ) (id : NodeId) :
    Orderly st (st.within id frames) := by
  unfold within
  cases came : frames (st.setState id .labeling) with
  | mk flow st' =>
    have orderly := inner (st.setState id .labeling)
    rw [came] at orderly
    exact orderly.between (quiet_setState SearchTree.empty st id _)
      (quiet_setState SearchTree.empty st' id _)

/-- A label frame, by induction on the frames that may nest. -/
theorem orderly_label (t : SearchTree) (frames : Nat) (id : NodeId) (depth : Nat)
    (path : PathState) (st : SearchState ρ) : Orderly st (t.label frames id depth path st) := by
  induction frames generalizing id depth path st with
  | zero => exact .refl st
  | succ frames ih =>
    unfold SearchTree.label
    split
    · exact .refl st
    · rename_i node here
      split
      · split
        · exact orderly_within (fun st => ih _ 0 .start st) st _
        · exact orderly_acceptAt st id node
      · rename_i var picked
        have quiet := (quiet_count SearchTree.empty st id fun c =>
          { c with maxDepth := max c.maxDepth (depth + 1) }).trans (quiet_branch _ _ id var)
        generalize st.count id (fun c => { c with maxDepth := max c.maxDepth (depth + 1) }) = st₁
          at quiet ⊢
        have trials := orderly_tryCandidates (fun path st => ih id (depth + 1) path st) id node
          path (st₁.branch id var).1.size 0 (st₁.branch id var).1.candidates (st₁.branch id var).2
        exact trials.between quiet (quiet_ite_backtrack SearchTree.empty _ id _ _)

end SearchState

end StagedSearch
