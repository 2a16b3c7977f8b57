/-
# Closing a level takes everything back

A level is opened, domains are replaced, the level is closed: the table is as it was before.
What makes this work is that a variable whose stamp names the innermost level is on the trail
of that level (`Marked`), and that no stamp names a level that is not open. Both are kept by
every operation on a table, level by level (`Nested`). The domains that wait on the trail fit
the declared kinds as much as those in the table do.
-/

import Mathlib.Logic.Function.Iterate
import StagedSearch.Proofs.Store.Narrowing

namespace StagedSearch

/-- What suits a kind still suits it when it has fewer values. -/
theorem VarKind.Suits.mono {kind : VarKind} {d e : Domain} (suits : kind.Suits d)
    (within : e.Within d) : kind.Suits e := by
  match kind, d, e with
  | .int, .int _, .int _ => exact fun value inside => suits value (within value inside)
  | .bool, .int _, .int _ => exact fun value inside => suits value (within value inside)
  | .set, .set _, .set _ => trivial
  | _, .int _, .set _ => exact within.elim
  | _, .set _, .int _ => exact within.elim
  | .set, .int _, .int _ => exact suits.elim
  | .int, .set _, .set _ => exact suits.elim
  | .bool, .set _, .set _ => exact suits.elim

namespace DomainTable

/-- The saved entries of the innermost level. -/
def frame (t : DomainTable) : List TrailEntry := t.trail.headD []

/-- No stamp names a level that is not open. -/
def Stamped (t : DomainTable) : Prop :=
  ∀ (i l : Nat), t.savedAt[i]? = some (some l) → l ≤ t.level

/-- Every variable that the innermost level has stamped is on its trail. -/
def Marked (t : DomainTable) : Prop :=
  ∀ i : Nat, t.savedAt[i]? = some (some t.level) → ∃ entry ∈ t.frame, entry.var.index = i

/-- The table has a stamp per domain, and its domains are canonical and suit the kinds that
are declared for their variables. -/
structure Fits (declarations : Array Variable) (t : DomainTable) : Prop where
  stamps : t.savedAt.size = t.domains.size
  canonical : t.Canonical
  suits : ∀ var v d, declarations[var.index]? = some v → t.get? var = some d → v.kind.Suits d

/-- Each level fits the declarations and has what it needs to be closed, from the innermost
one out. -/
inductive Nested (declarations : Array Variable) : DomainTable → Prop
  | flat {t : DomainTable} (fits : t.Fits declarations) (stamped : t.Stamped)
      (none : t.trail = []) : Nested declarations t
  | inner {t : DomainTable} (fits : t.Fits declarations) (stamped : t.Stamped)
      (opened : t.trail ≠ []) (marked : t.Marked)
      (inside : ∀ entry ∈ t.frame, entry.var.index < t.size)
      (outer : Nested declarations t.popLevel) : Nested declarations t

variable {t u : DomainTable} {declarations : Array Variable}

theorem Nested.fits (nested : t.Nested declarations) : t.Fits declarations := by
  cases nested with
  | flat fits _ _ => exact fits
  | inner fits _ _ _ _ _ => exact fits

theorem Nested.stamped (nested : t.Nested declarations) : t.Stamped := by
  cases nested with
  | flat _ stamped _ => exact stamped
  | inner _ stamped _ _ _ _ => exact stamped

theorem popLevel_of_trail_nil (none : t.trail = []) : t.popLevel = t := by
  unfold popLevel
  rw [none]

theorem Nested.popLevel (nested : t.Nested declarations) : t.popLevel.Nested declarations := by
  cases nested with
  | flat fits stamped none =>
    rw [popLevel_of_trail_nil none]
    exact .flat fits stamped none
  | inner _ _ _ _ _ outer => exact outer

/-! ## Putting back -/

/-- Replaces the domain and the stamp of a position. -/
def put (t : DomainTable) (i : Nat) (d : Domain) (stamp : Option Nat) : DomainTable :=
  { t with domains := t.domains.setIfInBounds i d, savedAt := t.savedAt.setIfInBounds i stamp }

theorem restore_eq_put (t : DomainTable) (entry : TrailEntry) :
    t.restore entry = t.put entry.var.index entry.domain entry.savedAt := rfl

theorem put_put_self (t : DomainTable) (i : Nat) (d e : Domain) (stamp stamp' : Option Nat) :
    (t.put i d stamp).put i e stamp' = t.put i e stamp' := by
  simp [put]

theorem put_put_of_ne (t : DomainTable) {i j : Nat} (different : i ≠ j) (d e : Domain)
    (stamp stamp' : Option Nat) :
    (t.put i d stamp).put j e stamp' = (t.put j e stamp').put i d stamp := by
  simp only [put, mk.injEq, and_true]
  constructor
  · exact Array.setIfInBounds_comm d e different
  · exact Array.setIfInBounds_comm stamp stamp' different

/-- What a level has saved is put back whatever stands there now. -/
theorem foldl_restore_put {entries : List TrailEntry} {i : Nat}
    (saved : ∃ entry ∈ entries, entry.var.index = i) (t : DomainTable) (d : Domain)
    (stamp : Option Nat) :
    entries.foldl restore (t.put i d stamp) = entries.foldl restore t := by
  induction entries generalizing t with
  | nil => simp at saved
  | cons entry rest ih =>
    simp only [List.foldl_cons, restore_eq_put]
    by_cases same : entry.var.index = i
    · subst same
      rw [put_put_self]
    · rw [put_put_of_ne t (Ne.symm same)]
      refine ih ?_ _
      obtain ⟨other, member, equal⟩ := saved
      rcases List.mem_cons.1 member with rfl | later
      · exact absurd equal same
      · exact ⟨other, later, equal⟩

theorem popLevel_pushLevel (t : DomainTable) : t.pushLevel.popLevel = t := rfl

theorem popLevel_of_trail {entries : List TrailEntry} {outer : List (List TrailEntry)}
    (open_ : t.trail = entries :: outer) :
    t.popLevel = entries.foldl restore { t with trail := outer } := by
  unfold popLevel
  rw [open_]

/-- Putting what is there changes nothing. -/
theorem put_self {i : Nat} {d : Domain} {stamp : Option Nat} (here : t.domains[i]? = some d)
    (there : t.savedAt[i]? = some stamp) : t.put i d stamp = t := by
  obtain ⟨inside, rfl⟩ := Array.getElem?_eq_some_iff.1 here
  obtain ⟨inside', rfl⟩ := Array.getElem?_eq_some_iff.1 there
  simp [put, Array.setIfInBounds, inside, inside']

/-! ## Replacing a domain inside a level -/

/-- Outside of all levels nothing is saved. Inside, a variable is saved unless the level has
stamped it already. -/
theorem replace_cases {var : VarId} {old : Domain} (sizes : t.savedAt.size = t.domains.size)
    (here : t.get? var = some old) (d : Domain) :
    (t.trail = [] ∧ t.replace var d = { t with domains := t.domains.setIfInBounds var.index d }) ∨
    (∃ entries outer, t.trail = entries :: outer ∧
      t.savedAt[var.index]? = some (some t.level) ∧
      t.replace var d = t.put var.index d (some t.level)) ∨
    ∃ entries outer stamp, t.trail = entries :: outer ∧ t.savedAt[var.index]? = some stamp ∧
      stamp ≠ some t.level ∧
      t.replace var d = { t.put var.index d (some t.level) with
        trail := (⟨var, old, stamp⟩ :: entries) :: outer } := by
  have found : t.domains[var.index]? = some old := here
  obtain ⟨stamp, stamped⟩ : ∃ stamp, t.savedAt[var.index]? = some stamp := by
    have inside := (Array.getElem?_eq_some_iff.1 found).1
    exact ⟨_, Array.getElem?_eq_getElem (sizes ▸ inside)⟩
  cases open_ : t.trail with
  | nil =>
    refine .inl ⟨rfl, ?_⟩
    simp [replace, save, open_]
  | cons entries outer =>
    refine .inr ?_
    by_cases marked : stamp = some t.level
    · subst marked
      refine .inl ⟨entries, outer, rfl, stamped, ?_⟩
      have same : t.savedAt.setIfInBounds var.index (some t.level) = t.savedAt :=
        congrArg savedAt (put_self (d := old) found stamped)
      simp [replace, save, open_, found, stamped, put, same]
    · refine .inr ⟨entries, outer, stamp, rfl, stamped, marked, ?_⟩
      simp [replace, save, open_, found, stamped, marked, put]

theorem level_replace (sizes : t.savedAt.size = t.domains.size) {var : VarId} {old : Domain}
    (here : t.get? var = some old) (d : Domain) : (t.replace var d).level = t.level := by
  rcases replace_cases sizes here d with ⟨-, equal⟩ | ⟨entries, outer, -, -, equal⟩ |
    ⟨entries, outer, stamp, open_, -, -, equal⟩
  · rw [equal]
    rfl
  · rw [equal]
    rfl
  · rw [equal]
    simp [level, open_]

/-- Closing the level takes the replacement back. -/
theorem popLevel_replace (sizes : t.savedAt.size = t.domains.size) (marked : t.Marked)
    (opened : t.trail ≠ []) {var : VarId} {old : Domain} (here : t.get? var = some old)
    (d : Domain) : (t.replace var d).popLevel = t.popLevel := by
  rcases replace_cases sizes here d with ⟨none, -⟩ | ⟨entries, outer, open_, stamped, equal⟩ |
    ⟨entries, outer, stamp, open_, stamped, -, equal⟩
  · exact absurd none opened
  · obtain ⟨entry, member, index⟩ := marked _ stamped
    rw [frame, open_, List.headD_cons] at member
    rw [equal, popLevel_of_trail (t := t.put _ _ _) open_, popLevel_of_trail open_]
    exact foldl_restore_put ⟨entry, member, index⟩ { t with trail := outer } d _
  · rw [equal, popLevel_of_trail rfl, popLevel_of_trail open_, List.foldl_cons, restore_eq_put]
    apply congrArg (entries.foldl restore)
    show ({ t with trail := outer }.put var.index d _).put var.index old stamp = _
    rw [put_put_self]
    exact put_self here stamped

/-- Inside a level, a variable is stamped with the level when its domain is replaced. -/
theorem savedAt_replace (sizes : t.savedAt.size = t.domains.size) {var : VarId} {old : Domain}
    (here : t.get? var = some old) (d : Domain) (i : Nat) :
    (t.replace var d).savedAt[i]? =
      if t.trail ≠ [] ∧ i = var.index then some (some t.level) else t.savedAt[i]? := by
  have inside : var.index < t.savedAt.size := by
    rw [sizes]
    exact get?_isSome_iff.1 (Option.isSome_of_eq_some here)
  rcases replace_cases sizes here d with ⟨none, equal⟩ | ⟨entries, outer, open_, -, equal⟩ |
    ⟨entries, outer, stamp, open_, -, -, equal⟩
  · rw [equal]
    simp [none]
  all_goals
    rw [equal]
    simp only [put, Array.getElem?_setIfInBounds]
    by_cases own : i = var.index
    · subst own
      simp [inside, open_]
    · simp [own, Ne.symm own]

theorem Stamped.replace (sizes : t.savedAt.size = t.domains.size) (stamped : t.Stamped)
    {var : VarId} {old : Domain} (here : t.get? var = some old) (d : Domain) :
    (t.replace var d).Stamped := by
  intro i l stamp
  rw [level_replace sizes here d]
  rw [savedAt_replace sizes here d i] at stamp
  split at stamp
  · cases stamp
    exact le_rfl
  · exact stamped i l stamp

theorem Marked.replace (sizes : t.savedAt.size = t.domains.size) (marked : t.Marked)
    (opened : t.trail ≠ []) {var : VarId} {old : Domain} (here : t.get? var = some old)
    (d : Domain) : (t.replace var d).Marked := by
  intro i stamp
  rw [level_replace sizes here d, savedAt_replace sizes here d i] at stamp
  rcases replace_cases sizes here d with ⟨none, -⟩ | ⟨entries, outer, open_, stamped, equal⟩ |
    ⟨entries, outer, _, open_, -, -, equal⟩
  · exact absurd none opened
  · rw [equal]
    apply marked i
    split at stamp
    · rename_i own
      exact own.2 ▸ stamped
    · exact stamp
  · rw [equal]
    simp only [frame, List.headD_cons, List.mem_cons]
    split at stamp
    · rename_i own
      exact ⟨_, .inl rfl, own.2.symm⟩
    · obtain ⟨entry, member, index⟩ := marked i stamp
      rw [frame, open_, List.headD_cons] at member
      exact ⟨entry, .inr member, index⟩

theorem sizes_replace (sizes : t.savedAt.size = t.domains.size) {var : VarId} {old : Domain}
    (here : t.get? var = some old) (d : Domain) :
    (t.replace var d).savedAt.size = (t.replace var d).domains.size := by
  rcases replace_cases sizes here d with ⟨-, equal⟩ | ⟨entries, outer, -, -, equal⟩ |
    ⟨entries, outer, _, -, -, -, equal⟩
  all_goals
    rw [equal]
    simpa [put] using sizes

theorem frame_replace_inside (sizes : t.savedAt.size = t.domains.size)
    (inside : ∀ entry ∈ t.frame, entry.var.index < t.size) {var : VarId} {old : Domain}
    (here : t.get? var = some old) (d : Domain) :
    ∀ entry ∈ (t.replace var d).frame, entry.var.index < (t.replace var d).size := by
  intro entry member
  rw [size_replace]
  rcases replace_cases sizes here d with ⟨-, equal⟩ | ⟨entries, outer, -, -, equal⟩ |
    ⟨entries, outer, _, open_, -, -, equal⟩
  · rw [equal] at member
    exact inside entry member
  · rw [equal] at member
    exact inside entry member
  · rw [equal] at member
    simp only [frame, List.headD_cons, List.mem_cons] at member
    rcases member with rfl | member
    · exact get?_isSome_iff.1 (Option.isSome_of_eq_some here)
    · exact inside entry (by rwa [frame, open_, List.headD_cons])

theorem trail_replace_eq_nil (sizes : t.savedAt.size = t.domains.size) {var : VarId}
    {old : Domain} (here : t.get? var = some old) (d : Domain) :
    (t.replace var d).trail = [] ↔ t.trail = [] := by
  have same := level_replace sizes here d
  simp only [level] at same
  rw [← List.length_eq_zero_iff, ← List.length_eq_zero_iff, same]

/-! ## The operations on a table -/

theorem Fits.replace (fits : t.Fits declarations) {var : VarId} {d e : Domain}
    (here : t.get? var = some d) (within : e.Within d) (canonical : e.Canonical) :
    (t.replace var e).Fits declarations := by
  refine ⟨sizes_replace fits.stamps here e, fits.canonical.replace canonical, ?_⟩
  intro other v f declared there
  rcases get?_replace_cases there with ⟨rfl, rfl⟩ | ⟨-, before⟩
  · exact (fits.suits other v d declared here).mono within
  · exact fits.suits other v f declared before

theorem Nested.replace (nested : t.Nested declarations) {var : VarId} {d e : Domain}
    (here : t.get? var = some d) (within : e.Within d) (canonical : e.Canonical) :
    (t.replace var e).Nested declarations := by
  have fits := nested.fits.replace here within canonical
  cases nested with
  | flat before stamped none =>
    exact .flat fits (stamped.replace before.stamps here e)
      ((trail_replace_eq_nil before.stamps here e).2 none)
  | inner before stamped opened marked inside outer =>
    refine .inner fits (stamped.replace before.stamps here e)
      (fun none => opened ((trail_replace_eq_nil before.stamps here e).1 none))
      (marked.replace before.stamps opened here e)
      (frame_replace_inside before.stamps inside here e) ?_
    rw [popLevel_replace before.stamps marked opened here]
    exact outer

theorem Nested.pushLevel (nested : t.Nested declarations) : t.pushLevel.Nested declarations := by
  have below : t.pushLevel.level = t.level + 1 := rfl
  have fits := nested.fits
  refine .inner ⟨fits.stamps, fits.canonical, fits.suits⟩ ?_ ?_ ?_ ?_ nested
  · intro i l stamp
    rw [below]
    exact (nested.stamped i l stamp).trans (Nat.le_succ _)
  · simp [DomainTable.pushLevel]
  · intro i stamp
    have := nested.stamped i _ stamp
    omega
  · simp [frame, DomainTable.pushLevel]

theorem Narrows.nested (narrows : t.Narrows u) (nested : t.Nested declarations) :
    u.Nested declarations := by
  induction narrows with
  | refl => exact nested
  | step _ here within _ canonical _ ih => exact ih.replace here within canonical

theorem Breaks.nested (breaks : t.Breaks u) (nested : t.Nested declarations) :
    u.Nested declarations := by
  cases breaks with
  | narrowed narrows => exact narrows.nested nested
  | emptied narrows here =>
    exact (narrows.nested nested).replace (int?_eq_some_iff.1 here) (by simp [IntDomain.empty])
      IntDomain.canonical_nil

theorem Breaks.level (breaks : t.Breaks u) (nested : t.Nested declarations) :
    u.level = t.level := by
  have narrowed {w : DomainTable} (narrows : t.Narrows w) : w.level = t.level := by
    induction narrows with
    | refl => rfl
    | step earlier here _ _ _ _ ih =>
      exact (level_replace (earlier.nested nested).fits.stamps here _).trans ih
  cases breaks with
  | narrowed narrows => exact narrowed narrows
  | emptied narrows here =>
    exact (level_replace (narrows.nested nested).fits.stamps (int?_eq_some_iff.1 here) _).trans
      (narrowed narrows)

/-- Inside a level narrowing changes neither the number of levels nor what closing the level
leads back to. -/
theorem Nested.popLevel_replace (nested : t.Nested declarations) (opened : t.trail ≠ [])
    {var : VarId} {old : Domain} (here : t.get? var = some old) (d : Domain) :
    (t.replace var d).popLevel = t.popLevel ∧ (t.replace var d).level = t.level := by
  cases nested with
  | flat _ _ none => exact absurd none opened
  | inner fits _ _ marked _ _ =>
    exact ⟨DomainTable.popLevel_replace fits.stamps marked opened here d,
      level_replace fits.stamps here d⟩

theorem Narrows.popLevel (narrows : t.Narrows u) (nested : t.Nested declarations)
    (opened : t.trail ≠ []) :
    u.popLevel = t.popLevel ∧ u.level = t.level ∧ u.trail ≠ [] := by
  induction narrows with
  | refl => exact ⟨rfl, rfl, opened⟩
  | @step u var d e earlier here _ _ _ _ ih =>
    have formed := earlier.nested nested
    obtain ⟨back, same, open_⟩ := ih
    obtain ⟨back', same'⟩ := formed.popLevel_replace open_ here e
    exact ⟨back'.trans back, same'.trans same,
      fun none => open_ ((trail_replace_eq_nil formed.fits.stamps here e).1 none)⟩

/-- Whatever narrowing was done inside a level, also if it failed, closing the level leads to
where it led before. -/
theorem Breaks.popLevel (breaks : t.Breaks u) (nested : t.Nested declarations)
    (opened : t.trail ≠ []) : u.popLevel = t.popLevel ∧ u.level = t.level := by
  cases breaks with
  | narrowed narrows =>
    obtain ⟨back, same, -⟩ := narrows.popLevel nested opened
    exact ⟨back, same⟩
  | @emptied u var d narrows here =>
    obtain ⟨back, same, opened⟩ := narrows.popLevel nested opened
    obtain ⟨back', same'⟩ := (narrows.nested nested).popLevel_replace opened
      (int?_eq_some_iff.1 here) (.int IntDomain.empty)
    exact ⟨back'.trans back, same'.trans same⟩

/-- A level that was opened for the narrowing leads back to the table from which it was
opened. -/
theorem Breaks.popLevel_of_pushLevel (nested : t.Nested declarations)
    (breaks : t.pushLevel.Breaks u) : u.popLevel = t ∧ u.level = t.level + 1 := by
  have opened : t.pushLevel.trail ≠ [] := by simp [DomainTable.pushLevel]
  obtain ⟨back, same⟩ := breaks.popLevel nested.pushLevel opened
  exact ⟨back.trans (popLevel_pushLevel t), same⟩

/-! ## Declaring inside a level -/

theorem restore_push (entry : TrailEntry) (sizes : t.savedAt.size = t.domains.size)
    (inside : entry.var.index < t.size) (d : Domain) :
    (t.push d).restore entry = (t.restore entry).push d := by
  unfold size at inside
  have inside' : entry.var.index < t.savedAt.size := sizes ▸ inside
  simp [restore, push, Array.setIfInBounds, inside, inside', Array.set_push,
    Nat.lt_succ_of_lt inside, Nat.lt_succ_of_lt inside']

theorem foldl_restore_push {entries : List TrailEntry} (t : DomainTable)
    (sizes : t.savedAt.size = t.domains.size)
    (inside : ∀ entry ∈ entries, entry.var.index < t.size) (d : Domain) :
    entries.foldl restore (t.push d) = (entries.foldl restore t).push d := by
  induction entries generalizing t with
  | nil => rfl
  | cons entry rest ih =>
    rw [List.foldl_cons, List.foldl_cons, restore_push entry sizes (inside entry (by simp))]
    refine ih _ (by simpa [restore] using sizes) fun other member => ?_
    simpa [size, restore] using inside other (by simp [member])

/-- A new variable is declared at all levels. -/
theorem popLevel_push (sizes : t.savedAt.size = t.domains.size)
    (inside : ∀ entry ∈ t.frame, entry.var.index < t.size) (d : Domain) :
    (t.push d).popLevel = t.popLevel.push d := by
  cases open_ : t.trail with
  | nil => rw [popLevel_of_trail_nil open_, popLevel_of_trail_nil (t := t.push d) open_]
  | cons entries outer =>
    rw [popLevel_of_trail open_, popLevel_of_trail (t := t.push d) open_]
    refine foldl_restore_push { t with trail := outer } sizes (fun entry member => ?_) d
    exact inside entry (by rwa [frame, open_, List.headD_cons])

theorem Stamped.push (stamped : t.Stamped) (d : Domain) : (t.push d).Stamped := by
  intro i l stamp
  simp only [DomainTable.push, Array.getElem?_push] at stamp
  split at stamp
  · cases stamp
  · exact stamped i l stamp

theorem Marked.push (marked : t.Marked) (d : Domain) : (t.push d).Marked := by
  intro i stamp
  have same : (t.push d).level = t.level := rfl
  rw [same] at stamp
  simp only [DomainTable.push, Array.getElem?_push] at stamp
  split at stamp
  · cases stamp
  · exact marked i stamp

theorem Fits.push (fits : t.Fits declarations) (sizes : t.size = declarations.size) {v : Variable}
    {d : Domain} (canonical : d.Canonical) (suits : v.kind.Suits d) :
    (t.push d).Fits (declarations.push v) := by
  unfold size at sizes
  have cases {var : VarId} {e : Domain} (here : (t.push d).get? var = some e) :
      (var.index = t.domains.size ∧ e = d) ∨ t.get? var = some e := by
    rw [get?_push] at here
    split at here
    · rename_i last
      exact .inl ⟨last, (Option.some.inj here).symm⟩
    · exact .inr here
  refine ⟨by simp [DomainTable.push, fits.stamps], fun var e here => ?_, ?_⟩
  · rcases cases here with ⟨-, rfl⟩ | here
    · exact canonical
    · exact fits.canonical var e here
  · intro var w e declared here
    rw [Array.getElem?_push] at declared
    rcases cases here with ⟨last, rfl⟩ | here
    · rw [if_pos (last.trans sizes)] at declared
      cases declared
      exact suits
    · have inside : var.index < t.domains.size := (Array.getElem?_eq_some_iff.1 here).1
      rw [if_neg (by omega)] at declared
      exact fits.suits var w e declared here

theorem size_popLevel (t : DomainTable) : t.popLevel.size = t.size := by
  have folded (entries : List TrailEntry) (u : DomainTable) :
      (entries.foldl restore u).size = u.size := by
    induction entries generalizing u with
    | nil => rfl
    | cons entry rest ih =>
      rw [List.foldl_cons, ih]
      simp [restore, size]
  unfold popLevel
  split
  · rfl
  · exact folded _ _

theorem Nested.push (nested : t.Nested declarations) (sizes : t.size = declarations.size)
    {v : Variable} {d : Domain} (canonical : d.Canonical) (suits : v.kind.Suits d) :
    (t.push d).Nested (declarations.push v) := by
  induction nested with
  | flat fits stamped none => exact .flat (fits.push sizes canonical suits) (stamped.push d) none
  | @inner t fits stamped opened marked inside outer ih =>
    refine .inner (fits.push sizes canonical suits) (stamped.push d) opened (marked.push d) ?_ ?_
    · intro entry member
      have := inside entry member
      simp only [size, DomainTable.push, Array.size_push] at *
      omega
    · rw [popLevel_push fits.stamps inside]
      exact ih ((size_popLevel t).trans sizes)

theorem Nested.popLevel_push (nested : t.Nested declarations) (d : Domain) :
    (t.push d).popLevel = t.popLevel.push d := by
  apply DomainTable.popLevel_push nested.fits.stamps
  cases nested with
  | flat _ _ none => simp [frame, none]
  | inner _ _ _ _ inside _ => exact inside

/-! ## All levels at once -/

/-- The property holds of the table, and of what closing any number of levels leads back to. -/
def EveryLevel (holds : DomainTable → Prop) (t : DomainTable) : Prop :=
  ∀ levels : Nat, holds (DomainTable.popLevel^[levels] t)

variable {holds holds' : DomainTable → Prop}

theorem EveryLevel.here (every : t.EveryLevel holds) : holds t := every 0

theorem EveryLevel.of_trail_nil (here : holds t) (flat : t.trail = []) : t.EveryLevel holds := by
  intro levels
  have fixed : t.popLevel = t := popLevel_of_trail_nil flat
  rwa [Function.iterate_fixed fixed]

/-- Narrowing, also one that fails, shows at the innermost level only. -/
theorem EveryLevel.of_breaks (every : t.EveryLevel holds) (nested : t.Nested declarations)
    (breaks : t.Breaks u) (here : holds u) : u.EveryLevel holds := by
  by_cases opened : t.trail = []
  · apply EveryLevel.of_trail_nil here
    have same := breaks.level nested
    unfold level at same
    rwa [← List.length_eq_zero_iff, same, List.length_eq_zero_iff]
  · intro levels
    cases levels with
    | zero => exact here
    | succ levels =>
      have outer := every (levels + 1)
      rw [Function.iterate_succ_apply] at outer ⊢
      rwa [(breaks.popLevel nested opened).1]

theorem EveryLevel.pushLevel (every : t.EveryLevel holds) (here : holds t.pushLevel) :
    t.pushLevel.EveryLevel holds := by
  intro levels
  cases levels with
  | zero => exact here
  | succ levels =>
    rw [Function.iterate_succ_apply, popLevel_pushLevel]
    exact every levels

theorem EveryLevel.popLevel (every : t.EveryLevel holds) : t.popLevel.EveryLevel holds := by
  intro levels
  rw [← Function.iterate_succ_apply]
  exact every (levels + 1)

/-- A variable is declared at every level. -/
theorem EveryLevel.push (every : t.EveryLevel holds) (nested : t.Nested declarations) {d : Domain}
    (added : ∀ u, holds u → holds' (u.push d)) : (t.push d).EveryLevel holds' := by
  intro levels
  induction levels generalizing t with
  | zero => exact added t every.here
  | succ levels ih =>
    rw [Function.iterate_succ_apply, nested.popLevel_push]
    exact ih every.popLevel nested.popLevel

end DomainTable

end StagedSearch
