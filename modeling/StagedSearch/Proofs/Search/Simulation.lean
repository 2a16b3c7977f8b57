/-
# A search that follows another one

Two searches over one tree whose states stay related take the same steps. If the first one may
also get lost, which is to end where the second one goes on, then it has taken a part of these
steps, from the first one on. What relates the states, and which outcomes are lost, are
parameters: for a time limit the outcomes with the flow `timedOut` are lost, and the states differ
in their deadlines.

The induction is on the course of the first search. Where it has been lost below, the second one
has a course of its own from there on, of which nothing has to be known.
-/

import StagedSearch.Proofs.Search.Course

namespace StagedSearch

namespace SearchState

variable {ρ : Type}

/-- Related states agree in what a search looks at, and they stay related by every step that
neither looks at the clock nor hands a solution over. -/
structure Parallel (related : SearchState ρ → SearchState ρ → Prop) : Prop where
  store : ∀ {st u}, related st u → u.store = st.store
  accepted : ∀ {st u}, related st u → u.accepted = st.accepted
  setState : ∀ {st u} id state, related st u → related (st.setState id state) (u.setState id state)
  count : ∀ {st u} id f, related st u → related (st.count id f) (u.count id f)
  popLevel : ∀ {st u}, related st u → related st.popLevel u.popLevel
  branch : ∀ {st u} id var, related st u →
    (u.branch id var).1 = (st.branch id var).1 ∧ related (st.branch id var).2 (u.branch id var).2
  decide : ∀ {st u} id bound choice, related st u →
    (u.decide id bound choice).1 = (st.decide id bound choice).1 ∧
      related (st.decide id bound choice).2 (u.decide id bound choice).2
  timeOut : ∀ {st u}, related st u → related st.timeOut u.timeOut

variable {related : SearchState ρ → SearchState ρ → Prop} {st u : SearchState ρ}

theorem Parallel.backtrack (parallel : Parallel related) (id : NodeId) (before : Nat)
    (same : related st u) : related (st.backtrack id before) (u.backtrack id before) := by
  unfold SearchState.backtrack
  rw [parallel.accepted same]
  split
  · exact parallel.setState id .backtracking (parallel.count id _ same)
  · exact same

theorem Parallel.of_branch (parallel : Parallel related) (same : related st u) {id : NodeId}
    {var : VarId} {branching : Branching} {st' : SearchState ρ}
    (listed : st.branch id var = (branching, st')) :
    ∃ u', u.branch id var = (branching, u') ∧ related st' u' := by
  obtain ⟨candidates, after⟩ := parallel.branch id var same
  rw [listed] at candidates after
  exact ⟨(u.branch id var).2, Prod.ext candidates rfl, after⟩

theorem Parallel.of_decide (parallel : Parallel related) (same : related st u) {id : NodeId}
    {bound : Option VarId} {choice : Choice} {consistent : Bool} {st' : SearchState ρ}
    (tried : st.decide id bound choice = (consistent, st')) :
    ∃ u', u.decide id bound choice = (consistent, u') ∧ related st' u' := by
  obtain ⟨succeeds, after⟩ := parallel.decide id bound choice same
  rw [tried] at succeeds after
  exact ⟨(u.decide id bound choice).2, Prod.ext succeeds rfl, after⟩

/-- States that are related in one of several ways are related. -/
theorem Parallel.exists {ι : Type} {allowed : ι → Prop}
    {related : ι → SearchState ρ → SearchState ρ → Prop}
    (parallel : ∀ i, Parallel (related i)) :
    Parallel fun st u => ∃ i, allowed i ∧ related i st u where
  store := fun ⟨i, _, same⟩ => (parallel i).store same
  accepted := fun ⟨i, _, same⟩ => (parallel i).accepted same
  setState id state := fun ⟨i, allowed, same⟩ => ⟨i, allowed, (parallel i).setState id state same⟩
  count id f := fun ⟨i, allowed, same⟩ => ⟨i, allowed, (parallel i).count id f same⟩
  popLevel := fun ⟨i, allowed, same⟩ => ⟨i, allowed, (parallel i).popLevel same⟩
  branch id var := fun ⟨i, allowed, same⟩ =>
    ⟨((parallel i).branch id var same).1, i, allowed, ((parallel i).branch id var same).2⟩
  decide id bound choice := fun ⟨i, allowed, same⟩ =>
    ⟨((parallel i).decide id bound choice same).1, i, allowed,
      ((parallel i).decide id bound choice same).2⟩
  timeOut := fun ⟨i, allowed, same⟩ => ⟨i, allowed, (parallel i).timeOut same⟩

variable [Reporter ρ]

/-- In related states a search does what another one does, as long as it is not lost. Once it is,
the way back to the root does not change that. -/
structure Tracks (lost : Flow × SearchState ρ → Prop)
    (related : SearchState ρ → SearchState ρ → Prop) : Prop extends Parallel related where
  goesOn : ∀ st, ¬ lost (.proceed, st)
  lost_setState : ∀ {flow st} id state, lost (flow, st) → lost (flow, st.setState id state)
  lost_popLevel : ∀ {flow st}, lost (flow, st) → lost (flow, st.popLevel)
  expired : ∀ {st u} id, related st u →
    (st.expired id).1 = true ∧ lost (.timedOut, (st.expired id).2.timeOut) ∨
      (u.expired id).1 = (st.expired id).1 ∧ related (st.expired id).2 (u.expired id).2
  acceptAt : ∀ {st u} id node, related st u → lost (st.acceptAt id node) ∨
    (u.acceptAt id node).1 = (st.acceptAt id node).1 ∧
      related (st.acceptAt id node).2 (u.acceptAt id node).2

/-- What one search has done, compared with another one: it hands over the first of the stores
that the other one hands over, and all of them if it was not lost. -/
structure Tracked (lost : Flow × SearchState ρ → Prop)
    (related : SearchState ρ → SearchState ρ → Prop) (steps : List (SearchStep ρ))
    (outcome : Flow × SearchState ρ) (whole : List (SearchStep ρ))
    (outcome' : Flow × SearchState ρ) : Prop where
  first : SearchStep.accepted steps <+: SearchStep.accepted whole
  all : ¬ lost outcome → SearchStep.accepted whole = SearchStep.accepted steps ∧
    outcome'.1 = outcome.1 ∧ related outcome.2 outcome'.2

variable {lost : Flow × SearchState ρ → Prop}

theorem Tracks.of_expired (tracks : Tracks lost related) (same : related st u) {id : NodeId}
    {late : Bool} {st' : SearchState ρ} (expired : st.expired id = (late, st')) :
    late = true ∧ lost (.timedOut, st'.timeOut) ∨
      ∃ u', u.expired id = (late, u') ∧ related st' u' := by
  have looks := tracks.expired id same
  rw [expired] at looks
  exact looks.imp_right fun ⟨late, after⟩ => ⟨(u.expired id).2, Prod.ext late rfl, after⟩

theorem Tracks.of_inTime (tracks : Tracks lost related) (same : related st u) {id : NodeId}
    {st' : SearchState ρ} (inTime : st.expired id = (false, st')) :
    ∃ u', u.expired id = (false, u') ∧ related st' u' :=
  (tracks.of_expired same inTime).resolve_left fun ⟨late, _⟩ => nomatch late

/-! ## Flows that are lost -/

/-- In related states a search takes the steps that another one takes, unless it ends with the
given flow. -/
structure CutsShort (cut : Flow) (related : SearchState ρ → SearchState ρ → Prop) : Prop
    extends Parallel related where
  ends : cut ≠ .proceed
  expired : ∀ {st u} id, related st u → (st.expired id).1 = true ∧ cut = .timedOut ∨
    (u.expired id).1 = (st.expired id).1 ∧ related (st.expired id).2 (u.expired id).2
  acceptAt : ∀ {st u} id node, related st u → (st.acceptAt id node).1 = cut ∨
    (u.acceptAt id node).1 = (st.acceptAt id node).1 ∧
      related (st.acceptAt id node).2 (u.acceptAt id node).2

/-- If the flow alone settles which outcomes are lost, then nothing has to be said of the way back
to the root. -/
theorem CutsShort.tracks {cut : Flow} (cuts : CutsShort cut related) :
    Tracks (fun outcome => outcome.1 = cut) related where
  toParallel := cuts.toParallel
  goesOn _ early := cuts.ends early.symm
  lost_setState _ _ early := early
  lost_popLevel early := early
  expired id same := (cuts.expired id same).imp_left (And.imp_right Eq.symm)
  acceptAt := cuts.acceptAt

end SearchState

/-- The flow with which the frames of a run have come to their end. -/
def SearchResult.flow (result : SearchResult) : Flow :=
  if result.timedOut then .timedOut else if result.stopped then .stop else .proceed

namespace SearchTree

variable {ρ : Type} [Reporter ρ] {t : SearchTree} {frames : Nat} {task : SearchTask}
  {st u : SearchState ρ} {steps : List (SearchStep ρ)} {outcome : Flow × SearchState ρ}

/-- A search has a beginning of what the search does that it tracks. -/
theorem Course.exists_tracked {lost : Flow × SearchState ρ → Prop}
    {related : SearchState ρ → SearchState ρ → Prop} (tracks : SearchState.Tracks lost related)
    (course : t.Course frames task st steps outcome) (same : related st u) :
    ∃ whole outcome', t.Course frames task u whole outcome' ∧
      SearchState.Tracked lost related steps outcome whole outcome' := by
  have parallel := tracks.toParallel
  induction course generalizing u with
  | spent => exact ⟨_, _, .spent, List.prefix_rfl, fun _ => ⟨rfl, rfl, same⟩⟩
  | missing none => exact ⟨_, _, .missing none, List.prefix_rfl, fun _ => ⟨rfl, rfl, same⟩⟩
  | @solved _ id _ _ _ node here decided last =>
    rw [← tracks.store same] at decided
    refine ⟨_, _, .solved here decided last, ?_, fun found => ?_⟩
    · simp [tracks.store same]
    · rcases tracks.acceptAt id node same with early | ⟨flow, after⟩
      · exact absurd early found
      · exact ⟨by simp [tracks.store same], flow, after⟩
  | @descended _ _ child _ _ _ _ _ _ flow here decided next _ ih =>
    rw [← tracks.store same] at decided
    obtain ⟨whole, ⟨flow', u'⟩, below, first, all⟩ := ih (tracks.setState child .labeling same)
    refine ⟨_, _, .descended here decided next below, first, fun found => ?_⟩
    obtain ⟨accepted, rfl, after⟩ := all fun early => found (tracks.lost_setState child _ early)
    exact ⟨accepted, rfl, tracks.setState child _ after⟩
  | @branched _ id _ _ st _ _ _ var branching _ flow here picked listed _ ih =>
    rw [← tracks.store same] at picked
    obtain ⟨u₁, listed', same₁⟩ := parallel.of_branch (tracks.count id _ same) listed
    obtain ⟨whole, ⟨flow', u₂⟩, trials, first, all⟩ := ih same₁
    refine ⟨_, _, .branched here picked listed' trials, first, fun found => ?_⟩
    have all := all fun early => found (by
      rwa [if_neg fun proceeds : flow = .proceed => tracks.goesOn _ (proceeds ▸ early)])
    obtain ⟨accepted, rfl, after⟩ := all
    refine ⟨accepted, rfl, ?_⟩
    simp only [tracks.accepted same]
    split
    · exact parallel.backtrack id st.accepted after
    · exact after
  | emptied none => exact ⟨_, _, .emptied none, List.prefix_rfl, fun _ => ⟨rfl, rfl, same⟩⟩
  | late here next expired =>
    rcases tracks.of_expired same expired with ⟨-, early⟩ | ⟨u₁, expired', same₁⟩
    · obtain ⟨whole, outcome', course⟩ := exists_course_trials here _ _ _ _ _ _ u
      exact ⟨whole, outcome', course, List.nil_prefix, fun found => absurd early found⟩
    · exact ⟨_, _, .late here next expired', List.prefix_rfl,
        fun _ => ⟨rfl, rfl, tracks.timeOut same₁⟩⟩
  | pruned here next inTime refused =>
    obtain ⟨u₁, inTime', same₁⟩ := tracks.of_inTime same inTime
    exact ⟨_, _, .pruned here next inTime' refused, List.prefix_rfl,
      fun _ => ⟨rfl, rfl, same₁⟩⟩
  | failed here next inTime admitted fails _ ih =>
    obtain ⟨u₁, inTime', same₁⟩ := tracks.of_inTime same inTime
    obtain ⟨u₂, fails', same₂⟩ := parallel.of_decide same₁ fails
    obtain ⟨whole, outcome', later, first, all⟩ := ih same₂
    exact ⟨_, _, .failed here next inTime' admitted fails' later, first, all⟩
  | returned here next inTime admitted enters _ _ ihBelow ihLater =>
    obtain ⟨u₁, inTime', same₁⟩ := tracks.of_inTime same inTime
    obtain ⟨u₂, enters', same₂⟩ := parallel.of_decide same₁ enters
    obtain ⟨inner, ⟨flow, u₃⟩, below, -, inside⟩ := ihBelow same₂
    obtain ⟨accepted, rfl, same₃⟩ := inside (tracks.goesOn _)
    obtain ⟨whole, outcome', later, first, all⟩ := ihLater (tracks.popLevel same₃)
    refine ⟨_, _, .returned here next inTime' admitted enters' below later, ?_, fun found => ?_⟩
    · simpa [accepted] using first
    · obtain ⟨accepted', flow, after⟩ := all found
      exact ⟨by simp [accepted, accepted'], flow, after⟩
  | @ended _ _ _ _ _ _ _ _ rest _ _ _ _ _ _ _ flow here next inTime admitted enters _ ends ih =>
    obtain ⟨u₁, inTime', same₁⟩ := tracks.of_inTime same inTime
    obtain ⟨u₂, enters', same₂⟩ := parallel.of_decide same₁ enters
    obtain ⟨inner, ⟨flow', u₃⟩, below, first, all⟩ := ih same₂
    by_cases goesOn : flow' = .proceed
    · -- the second search goes on, so that the first one was lost
      subst goesOn
      have early := of_not_not fun found => ends (all found).2.1.symm
      obtain ⟨whole, outcome', later⟩ := exists_course_trials here _ _ _ _ _ rest u₃.popLevel
      refine ⟨_, _, .returned here next inTime' admitted enters' below later, ?_,
        fun found => absurd (tracks.lost_popLevel early) found⟩
      simpa using first.trans (List.prefix_append _ _)
    · refine ⟨_, _, .ended here next inTime' admitted enters' below goesOn, ?_, fun found => ?_⟩
      · simpa using first
      · obtain ⟨accepted, rfl, same₃⟩ := all fun early => found (tracks.lost_popLevel early)
        exact ⟨by simpa using accepted, rfl, tracks.popLevel same₃⟩

/-! ## Whole runs -/

/-- A run does a beginning of what the run does that it tracks. -/
theorem Follows.exists_tracked {lost : Flow × SearchState ρ → Prop}
    {related : SearchState ρ → SearchState ρ → Prop} (tracks : SearchState.Tracks lost related)
    (same : related st u)
    (begins : related (SearchState.started t st) (SearchState.started t u))
    (follows : t.Follows st steps) :
    ∃ whole, t.Follows u whole ∧
      SearchState.Tracked lost related steps ((t.run st).1.flow, (t.run st).2) whole
        ((t.run u).1.flow, (t.run u).2) ∧
      (¬ lost ((t.run st).1.flow, (t.run st).2) → (t.run u).1 = (t.run st).1) := by
  cases follows with
  | empty none =>
    rw [SearchState.run_eq_of_empty (root?_eq_none_iff.1 none),
      SearchState.run_eq_of_empty (root?_eq_none_iff.1 none)]
    exact ⟨[], .empty none, ⟨List.prefix_rfl, fun _ => ⟨rfl, rfl, same⟩⟩, fun _ => rfl⟩
  | inconsistent found fails =>
    have fails' : u.store.pushLevel.consistency.1 = false := by rwa [tracks.store same]
    rw [run_of_inconsistent found fails, run_of_inconsistent found fails']
    exact ⟨[], .inconsistent found fails', ⟨List.prefix_rfl,
      fun _ => ⟨rfl, rfl, tracks.popLevel (tracks.setState _ _ begins)⟩⟩, fun _ => rfl⟩
  | @searched root _ outcome found succeeds course =>
    obtain ⟨flow, st'⟩ := outcome
    have succeeds' : u.store.pushLevel.consistency.1 = true := by rwa [tracks.store same]
    obtain ⟨whole, ⟨flow', u'⟩, course', first, all⟩ :=
      course.exists_tracked tracks (tracks.setState root .labeling begins)
    have course' : t.Course (t.frameBound u.store) (.label root 0 .start)
        ((SearchState.started t u).setState root .labeling) whole (flow', u') := by
      rwa [tracks.store same]
    have same_flow (flow : Flow) (found : Bool) : SearchResult.flow
        ⟨found, decide (flow = .timedOut), decide (flow = .stop)⟩ = flow := by
      cases flow <;> rfl
    rw [course.run_eq found succeeds, course'.run_eq found succeeds', same_flow, same_flow]
    have kept : ¬ lost (flow, (st'.setState root (if flow = .timedOut then .timedOut
        else .exhausted)).popLevel) → ¬ lost (flow, st') :=
      mt fun early => tracks.lost_popLevel (tracks.lost_setState _ _ early)
    refine ⟨whole, .searched found succeeds' course', ⟨first, fun here => ?_⟩, fun here => ?_⟩
    · obtain ⟨accepted, rfl, after⟩ := all (kept here)
      exact ⟨accepted, rfl, tracks.popLevel (tracks.setState _ _ after)⟩
    · obtain ⟨-, rfl, after⟩ := all (kept here)
      rw [show u.context.listener.count = st.context.listener.count from tracks.accepted same,
        tracks.accepted after]

end SearchTree

end StagedSearch
