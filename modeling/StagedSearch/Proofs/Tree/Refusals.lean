/-
# Why a search is not built

Whatever keeps a search from being built is about the hints, the cost or the variables. It is
never a fault of the output, since building does not write anything. The errors are followed
through the steps of building, each of which passes on those of the steps before.
-/

import StagedSearch.Tree.Build
import StagedSearch.Proofs.Store.Narrowing

namespace StagedSearch

namespace SolveError

variable {σ α β : Type}

def IsOutput : SolveError → Prop
  | output _ => True
  | _ => False

def Inward (x : Except SolveError α) : Prop := ∀ e, x = .error e → ¬ e.IsOutput

def InwardStep (x : EStateM SolveError σ α) : Prop :=
  ∀ s e s', x s = .error e s' → ¬ e.IsOutput

theorem Inward.bind {x : Except SolveError α} {f : α → Except SolveError β} (first : Inward x)
    (rest : ∀ a, Inward (f a)) : Inward (x >>= f) := by
  intro e fails
  cases x with
  | error e' =>
    cases fails
    exact first _ rfl
  | ok a => exact rest a e fails

theorem inward_ok (a : α) : Inward (.ok a : Except SolveError α) := nofun

theorem inward_ofStore (x : Except StoreError α) : Inward (ofStore x) := by
  intro e fails
  cases x with
  | ok a => cases fails
  | error e' =>
    cases fails
    exact id

theorem inward_error {e : SolveError} (inward : ¬ e.IsOutput) :
    Inward (.error e : Except SolveError α) := by
  rintro _ ⟨⟩
  exact inward

theorem InwardStep.bind {x : EStateM SolveError σ α} {f : α → EStateM SolveError σ β}
    (first : InwardStep x) (rest : ∀ a, InwardStep (f a)) : InwardStep (x >>= f) := by
  intro s e s' fails
  rw [bind_apply] at fails
  cases ran : x s with
  | ok a between =>
    rw [ran] at fails
    exact rest a between e s' fails
  | error e' between =>
    rw [ran] at fails
    cases fails
    exact first s e s' ran

theorem inwardStep_pure (a : α) : InwardStep (pure a : EStateM SolveError σ α) := nofun

theorem inwardStep_throw {e : SolveError} (inward : ¬ e.IsOutput) :
    InwardStep (throw e : EStateM SolveError σ α) := by
  rintro s _ _ ⟨⟩
  exact inward

/-! ## The steps of building -/

theorem inward_checkVariables (kind : DirectiveKind) (s : Store) (vars : List VarId) :
    Inward (CompiledSearch.checkVariables kind s vars) := by
  induction vars with
  | nil => exact inward_ok ()
  | cons var rest ih =>
    refine (inward_ofStore _).bind fun v => ?_
    cases kind with
    | seq => exact inward_error id
    | leaf leaf =>
      dsimp only
      split
      · exact ih
      · exact inward_error id

theorem inwardStep_settleValueOrder (kind : VarKind) (preference : ValuePreference) :
    InwardStep (CompiledSearch.settleValueOrder kind preference) := by
  cases kind <;> cases preference <;>
    first
    | exact inwardStep_pure _
    | exact inwardStep_throw id
    | rintro _ _ _ ⟨⟩

theorem inwardStep_compile (kind : DirectiveKind) (search : VarSearch) (s : Store) :
    InwardStep (CompiledSearch.compile kind search s) := by
  have checked := inward_checkVariables kind s search.vars
  unfold CompiledSearch.compile
  cases outcome : CompiledSearch.checkVariables kind s search.vars with
  | error e => exact inwardStep_throw (checked e outcome)
  | ok u =>
    cases kind with
    | seq => exact inwardStep_throw id
    | leaf leaf =>
      dsimp only
      split
      · exact inwardStep_pure none
      · exact (inwardStep_settleValueOrder _ _).bind fun _ => inwardStep_pure _

theorem inwardStep_compileAll (s : Store) (role : NodeRole)
    (leaves : List (VarKind × VarSearch)) :
    InwardStep (SearchSpec.compileAll s role leaves) := by
  induction leaves with
  | nil => exact inwardStep_pure []
  | cons leaf rest ih =>
    exact (inwardStep_compile _ _ _).bind fun _ => ih.bind fun _ => inwardStep_pure _

theorem inward_kindsOf (s : Store) (vars : List VarId) : Inward (SearchSpec.kindsOf s vars) := by
  induction vars with
  | nil => exact inward_ok []
  | cons var rest ih =>
    exact (inward_ofStore _).bind fun v => ih.bind fun later => inward_ok _

theorem inward_completion (spec : SearchSpec) (names : Names) (s : Store) :
    Inward (spec.completion names s) :=
  (inward_kindsOf s _).bind fun _ => inward_ok _

theorem inwardStep_stages (spec : SearchSpec) (names : Names) (s : Store) :
    InwardStep (spec.stages names s) := by
  refine (inwardStep_compileAll s .explicit spec.leaves).bind fun explicit => ?_
  have completes := inward_completion spec names s
  cases completed : spec.completion names s with
  | error e => exact (inwardStep_throw (completes e completed)).bind fun _ => inwardStep_pure _
  | ok sets => exact (inwardStep_compileAll s .completion _).bind fun _ => inwardStep_pure _

theorem inward_wireMaximum (cost : VarId) (s : Store) : Inward (SearchSpec.wireMaximum cost s) := by
  refine (inward_ofStore _).bind fun domain => (inward_ofStore _).bind fun v => ?_
  dsimp only
  split
  · split
    · exact inward_ok _
    · exact inward_error id
  · exact inward_error id

theorem inward_wireCost (spec : SearchSpec) (s : Store) : Inward (spec.wireCost s) := by
  unfold SearchSpec.wireCost
  split
  · exact inward_ok _
  · exact inward_error id
  · exact inward_ok _
  · rename_i cost _ _
    have wires := inward_wireMaximum cost s
    cases wired : SearchSpec.wireMaximum cost s with
    | error e => exact inward_error (wires e wired)
    | ok found => exact inward_ok _

/-- A search that cannot be built is not refused because of the output. -/
theorem inward_build {ρ : Type} [Reporter ρ] (spec : SearchSpec) (names : Names) (s : Store)
    (context : Context ρ) : Inward (spec.build names s context).outcome := by
  have compiles := inwardStep_stages spec names s
  unfold SearchSpec.build
  cases compiled : spec.stages names s context.seeds with
  | error e seeds => exact inward_error (compiles _ e seeds compiled)
  | ok stages seeds =>
    dsimp only
    split
    · exact inward_ok _
    · have wires := inward_wireCost spec s
      unfold SearchSpec.chain
      cases wired : spec.wireCost s with
      | error e => exact inward_error (wires e wired)
      | ok objective => exact inward_ok _

end SolveError

end StagedSearch
