/-
# The four narrowing operations

What each operation does to a canonical table, said once: when it succeeds, which values
are left, and that its flag is exact. Everything later reads these statements and not the
operations.
-/

import StagedSearch.Proofs.Store.Narrowing

namespace StagedSearch

namespace Narrowing

variable {t u : DomainTable} {var : VarId} {changed : Bool}

/-! ## Running an operation -/

theorem restrict_apply {d : IntDomain} {min max low high : Int} (here : t.int? var = some d)
    (least : d.min? = some low) (greatest : d.max? = some high) :
    restrict var min max t =
      if min ≤ low ∧ high ≤ max then .ok false t
      else if high < min ∨ max < low then .error .inconsistent t
      else if (d.restrict min max).1.isEmpty then
        .error .inconsistent (t.replace var (.int (d.restrict min max).1))
      else .ok (d.restrict min max).2 (t.replace var (.int (d.restrict min max).1)) := by
  have ends : bounds var t = .ok (low, high) t := bounds_eq_ok.2 ⟨⟨d, here, least, greatest⟩, rfl⟩
  have domain : intDomain var t = .ok d t := intDomain_eq_ok.2 ⟨here, rfl⟩
  unfold restrict
  rw [bind_apply, ends]
  simp only
  split
  · rfl
  · split
    · rfl
    · simp only [bind_apply, domain]
      show (if (d.restrict min max).1.isEmpty = true then _ else _ : Narrowing Bool) _ = _
      split <;> rfl

/-- Without a value there is nothing to restrict. -/
theorem restrict_of_not_hasValue {min max : Int}
    (none : ∀ d, t.int? var = some d → d.Canonical ∧ ¬ d.HasValue) :
    restrict var min max t = .error .inconsistent t := by
  have ends : bounds var t = .error .inconsistent t := by
    rcases reads_bounds var t with ⟨⟨low, high⟩, run⟩ | ⟨e, run⟩
    · obtain ⟨⟨d, here, least, -⟩, -⟩ := bounds_eq_ok.1 run
      obtain ⟨canonical, empty⟩ := none d here
      exact absurd ⟨low, ((canonical.min?_eq_some_iff).1 least).1⟩ empty
    · rw [run]
  unfold restrict
  rw [bind_apply, ends]

theorem remove_apply {d : IntDomain} {value : Int} (here : t.int? var = some d) :
    remove var value t =
      if value ∉ d then .ok false t
      else if d.isSingleton then .error .inconsistent t
      else .ok true (t.replace var (.int (d.remove value).1)) := by
  have domain : intDomain var t = .ok d t := intDomain_eq_ok.2 ⟨here, rfl⟩
  unfold remove
  rw [bind_apply, domain]
  by_cases inside : d.contains value = true
  · have member : value ∈ d := inside
    by_cases decided : d.isSingleton = true
    · simp only [inside, decided, member]
      rfl
    · have changes : (d.remove value).2 = true := inside
      simp only [inside, decided, member]
      show EStateM.Result.ok (d.remove value).2 _ = _
      rw [changes]
      rfl
  · have outside : value ∉ d := inside
    simp only [inside, outside]
    rfl

theorem intDomain_of_none (none : t.int? var = none) :
    intDomain var t = .error .inconsistent t := by
  rcases reads_intDomain var t with ⟨d, run⟩ | ⟨e, run⟩
  · have := (intDomain_eq_ok.1 run).1
    rw [none] at this
    cases this
  · rw [run]

theorem remove_of_none {value : Int} (none : t.int? var = none) :
    remove var value t = .error .inconsistent t := by
  unfold remove
  rw [bind_apply, intDomain_of_none none]

theorem setDomain_of_none (none : t.set? var = none) :
    setDomain var t = .error .inconsistent t := by
  rcases reads_setDomain var t with ⟨d, run⟩ | ⟨e, run⟩
  · have := (setDomain_eq_ok.1 run).1
    rw [none] at this
    cases this
  · rw [run]

theorem includeElement_apply {d : SetDomain} {element : Int} (here : t.set? var = some d) :
    includeElement var element t =
      if element ∈ d.glb then .ok false t
      else if element ∉ d.lub then .error .inconsistent t
      else .ok true (t.replace var (.set ⟨Elements.insert element d.glb, d.lub⟩)) := by
  have domain : setDomain var t = .ok d t := setDomain_eq_ok.2 ⟨here, rfl⟩
  unfold includeElement
  rw [bind_apply, domain]
  by_cases inside : element ∈ d.glb
  · simp [inside, pure_apply]
  · by_cases possible : element ∈ d.lub
    · simp only [SetDomain.include?, List.contains_eq_mem, inside, possible]
      rfl
    · simp only [SetDomain.include?, List.contains_eq_mem, inside, possible]
      rfl

theorem excludeElement_apply {d : SetDomain} {element : Int} (here : t.set? var = some d) :
    excludeElement var element t =
      if element ∉ d.lub then .ok false t
      else if element ∈ d.glb then .error .inconsistent t
      else .ok true (t.replace var (.set ⟨d.glb, Elements.remove element d.lub⟩)) := by
  have domain : setDomain var t = .ok d t := setDomain_eq_ok.2 ⟨here, rfl⟩
  unfold excludeElement
  rw [bind_apply, domain]
  by_cases possible : element ∈ d.lub
  · by_cases inside : element ∈ d.glb
    · simp only [SetDomain.exclude?, List.contains_eq_mem, inside, possible]
      rfl
    · simp only [SetDomain.exclude?, List.contains_eq_mem, inside, possible]
      rfl
  · simp [possible, pure_apply]

theorem includeElement_of_none {element : Int} (none : t.set? var = none) :
    includeElement var element t = .error .inconsistent t := by
  unfold includeElement
  rw [bind_apply, setDomain_of_none none]

theorem excludeElement_of_none {element : Int} (none : t.set? var = none) :
    excludeElement var element t = .error .inconsistent t := by
  unfold excludeElement
  rw [bind_apply, setDomain_of_none none]

/-! ## Exact flags -/

/-- Replacing a domain by a proper part that has a value is a change that is reported. -/
theorem follows_replace {d e : Domain} (canonical : t.Canonical) (here : t.get? var = some d)
    (within : e.Within d) (different : e ≠ d) (new : e.Canonical) (filled : e.HasValue) :
    Follows t false (.ok true (t.replace var e)) := by
  refine ⟨.single here within different new filled, fun _ => .inr ?_, nofun⟩
  exact DomainTable.weight_replace_lt here (within.weight_lt new (canonical _ _ here) different)

theorem carries_restrict (var : VarId) (min max : Int) : Carries false (restrict var min max) := by
  intro t canonical
  by_cases some : ∃ d, t.int? var = some d ∧ d.HasValue
  · obtain ⟨d, here, filled⟩ := some
    have formed := canonical.int? here
    obtain ⟨low, high, least, greatest⟩ := formed.exists_bounds filled
    rw [restrict_apply here least greatest]
    split
    · exact ⟨.refl t, nofun, fun _ => ⟨rfl, rfl⟩⟩
    rename_i cuts
    split
    · exact .narrowed (.refl t)
    split
    · rename_i emptied
      have : (d.restrict min max).1 = IntDomain.empty := by
        cases equal : (d.restrict min max).1
        rw [equal] at emptied
        exact congrArg _ (IntDomain.isEmpty_iff.1 emptied)
      rw [this]
      exact .emptied (.refl t) here
    · rename_i remains
      -- One of the two ends is cut off, so the domain really shrinks.
      have lowest := (formed.min?_eq_some_iff.1 least).1
      have highest := (formed.max?_eq_some_iff.1 greatest).1
      have smaller : (d.restrict min max).1 ≠ d := by
        intro equal
        have first := IntDomain.mem_restrict.1 (equal.symm ▸ lowest)
        have last := IntDomain.mem_restrict.1 (equal.symm ▸ highest)
        exact cuts ⟨first.2.1, last.2.2⟩
      have changes : (d.restrict min max).2 = true := by
        simpa [IntDomain.restrict] using smaller
      have new := formed.restrict min max
      rw [changes]
      refine follows_replace canonical (DomainTable.int?_eq_some_iff.1 here) ?_ (by simpa) new ?_
      · exact fun value inside => (IntDomain.mem_restrict.1 inside).1
      · exact (IntDomain.Canonical.isEmpty_eq_false_iff new).1 (by simpa using remains)
  · rw [restrict_of_not_hasValue fun d here =>
      ⟨canonical.int? here, fun filled => some ⟨d, here, filled⟩⟩]
    exact .narrowed (.refl t)

theorem carries_remove (var : VarId) (value : Int) : Carries false (remove var value) := by
  intro t canonical
  cases here : t.int? var with
  | none =>
    rw [remove_of_none here]
    exact .narrowed (.refl t)
  | some d =>
    have formed := canonical.int? here
    rw [remove_apply here]
    split
    · exact ⟨.refl t, nofun, fun _ => ⟨rfl, rfl⟩⟩
    rename_i inside
    rw [not_not] at inside
    split
    · exact .narrowed (.refl t)
    · rename_i open_
      have different : Domain.int (d.remove value).1 ≠ .int d := by
        intro equal
        have : value ∈ (d.remove value).1 := (Domain.int.inj equal).symm ▸ inside
        exact ((IntDomain.mem_remove formed).1 this).1 rfl
      refine follows_replace canonical (DomainTable.int?_eq_some_iff.1 here) ?_ different
        (formed.remove value) ?_
      · exact fun other member => ((IntDomain.mem_remove formed).1 member).2
      · -- A domain that is not decided has a second value.
        by_contra empty
        refine open_ (formed.isSingleton_iff.2 ⟨value, fun other => ⟨fun member => ?_, ?_⟩⟩)
        · by_contra different
          exact empty ⟨other, (IntDomain.mem_remove formed).2 ⟨different, member⟩⟩
        · rintro rfl
          exact inside

theorem carries_includeElement (var : VarId) (element : Int) :
    Carries false (includeElement var element) := by
  intro t canonical
  cases here : t.set? var with
  | none =>
    rw [includeElement_of_none here]
    exact .narrowed (.refl t)
  | some d =>
    have formed := canonical.set? here
    rw [includeElement_apply here]
    split
    · exact ⟨.refl t, nofun, fun _ => ⟨rfl, rfl⟩⟩
    rename_i outside
    split
    · exact .narrowed (.refl t)
    · rename_i possible
      rw [not_not] at possible
      have included : d.include? element =
          some (⟨Elements.insert element d.glb, d.lub⟩, !d.glb.contains element) := by
        simp [SetDomain.include?, possible]
      have new : (Domain.set ⟨Elements.insert element d.glb, d.lub⟩).Canonical :=
        SetDomain.Canonical.include? formed included
      have different : Domain.set ⟨Elements.insert element d.glb, d.lub⟩ ≠ .set d := by
        intro equal
        have same : Elements.insert element d.glb = d.glb :=
          congrArg SetDomain.glb (Domain.set.inj equal)
        exact outside (same ▸ Elements.mem_insert.2 (.inl rfl))
      refine follows_replace canonical (DomainTable.set?_eq_some_iff.1 here) ?_ different new
        trivial
      exact ⟨fun other member => Elements.mem_insert.2 (.inr member), fun other member => member⟩

theorem carries_excludeElement (var : VarId) (element : Int) :
    Carries false (excludeElement var element) := by
  intro t canonical
  cases here : t.set? var with
  | none =>
    rw [excludeElement_of_none here]
    exact .narrowed (.refl t)
  | some d =>
    have formed := canonical.set? here
    rw [excludeElement_apply here]
    split
    · exact ⟨.refl t, nofun, fun _ => ⟨rfl, rfl⟩⟩
    rename_i possible
    rw [not_not] at possible
    split
    · exact .narrowed (.refl t)
    · rename_i outside
      have excluded : d.exclude? element =
          some (⟨d.glb, Elements.remove element d.lub⟩, d.lub.contains element) := by
        simp [SetDomain.exclude?, outside]
      have new : (Domain.set ⟨d.glb, Elements.remove element d.lub⟩).Canonical :=
        SetDomain.Canonical.exclude? formed excluded
      have different : Domain.set ⟨d.glb, Elements.remove element d.lub⟩ ≠ .set d := by
        intro equal
        have same : Elements.remove element d.lub = d.lub :=
          congrArg SetDomain.lub (Domain.set.inj equal)
        exact (Elements.mem_remove.1 (same.symm ▸ possible)).2 rfl
      refine follows_replace canonical (DomainTable.set?_eq_some_iff.1 here) ?_ different new
        trivial
      exact ⟨fun other member => member, fun other member => (Elements.mem_remove.1 member).1⟩

/-! ## What is left after a success -/

/-- A flag that is down leaves everything as it was. -/
theorem Carries.eq_of_down {op : Narrowing Bool} (carries : Carries false op)
    (canonical : t.Canonical) (run : op t = .ok false u) : u = t := by
  have follows := carries t canonical
  rw [run] at follows
  exact (follows.2.2 rfl).2

theorem Carries.narrows {op : Narrowing Bool} (carries : Carries false op)
    (canonical : t.Canonical) (run : op t = .ok changed u) : t.Narrows u := by
  have follows := carries t canonical
  rw [run] at follows
  exact follows.1

theorem int?_replace_self {d e : IntDomain} (here : t.int? var = some d) :
    (t.replace var (.int e)).int? var = some e :=
  DomainTable.int?_eq_some_iff.2 (DomainTable.get?_replace_self
    (DomainTable.get?_isSome_iff.1
      (Option.isSome_of_eq_some (DomainTable.int?_eq_some_iff.1 here))))

theorem set?_replace_self {d e : SetDomain} (here : t.set? var = some d) :
    (t.replace var (.set e)).set? var = some e :=
  DomainTable.set?_eq_some_iff.2 (DomainTable.get?_replace_self
    (DomainTable.get?_isSome_iff.1
      (Option.isSome_of_eq_some (DomainTable.set?_eq_some_iff.1 here))))

/-- A restriction that succeeds leaves the common part with the bounds, which has a value. -/
theorem restrict_eq_ok {min max : Int} (canonical : t.Canonical)
    (run : restrict var min max t = .ok changed u) :
    ∃ d e, t.int? var = some d ∧ u.int? var = some e ∧ e.HasValue ∧
      ∀ value, value ∈ e ↔ value ∈ d ∧ min ≤ value ∧ value ≤ max := by
  by_cases some : ∃ d, t.int? var = some d ∧ d.HasValue
  · obtain ⟨d, here, filled⟩ := some
    have formed := canonical.int? here
    obtain ⟨low, high, least, greatest⟩ := formed.exists_bounds filled
    rw [restrict_apply here least greatest] at run
    split at run
    · rename_i covers
      cases run
      refine ⟨d, d, here, here, filled, fun value => ⟨fun inside => ⟨inside, ?_⟩, And.left⟩⟩
      have := (formed.min?_eq_some_iff.1 least).2 value inside
      have := (formed.max?_eq_some_iff.1 greatest).2 value inside
      omega
    split at run
    · cases run
    split at run
    · cases run
    · rename_i remains
      cases run
      refine ⟨d, _, here, int?_replace_self here, ?_, fun value => IntDomain.mem_restrict⟩
      exact (formed.restrict min max).isEmpty_eq_false_iff.1 (by simpa using remains)
  · rw [restrict_of_not_hasValue fun d here =>
      ⟨canonical.int? here, fun filled => some ⟨d, here, filled⟩⟩] at run
    cases run

/-- A restriction with a value between the bounds succeeds. -/
theorem exists_restrict_eq_ok {min max value : Int} {d : IntDomain} (canonical : t.Canonical)
    (here : t.int? var = some d) (inside : value ∈ d) (low : min ≤ value) (high : value ≤ max) :
    ∃ changed u, restrict var min max t = .ok changed u := by
  have formed := canonical.int? here
  obtain ⟨a, b, least, greatest⟩ := formed.exists_bounds ⟨value, inside⟩
  have first := (formed.min?_eq_some_iff.1 least).2 value inside
  have last := (formed.max?_eq_some_iff.1 greatest).2 value inside
  rw [restrict_apply here least greatest]
  split
  · exact ⟨_, _, rfl⟩
  split
  · omega
  split
  · rename_i emptied
    have none := IntDomain.isEmpty_iff.1 emptied
    have member := IntDomain.mem_restrict.2 ⟨inside, low, high⟩
    simp [IntDomain.mem_iff, none] at member
  · exact ⟨_, _, rfl⟩

/-- A removal that succeeds leaves the other values. -/
theorem remove_eq_ok {value : Int} (canonical : t.Canonical)
    (run : remove var value t = .ok changed u) :
    ∃ d e, t.int? var = some d ∧ u.int? var = some e ∧
      ∀ other, other ∈ e ↔ other ≠ value ∧ other ∈ d := by
  cases here : t.int? var with
  | none =>
    rw [remove_of_none here] at run
    cases run
  | some d =>
    rw [remove_apply here] at run
    split at run
    · rename_i outside
      cases run
      refine ⟨d, d, rfl, here, fun other => ⟨fun inside => ⟨?_, inside⟩, And.right⟩⟩
      rintro rfl
      exact outside inside
    split at run
    · cases run
    · cases run
      exact ⟨d, _, rfl, int?_replace_self here,
        fun other => IntDomain.mem_remove (canonical.int? here)⟩

/-- A removal succeeds unless it takes the last value. -/
theorem exists_remove_eq_ok {value other : Int} {d : IntDomain} (canonical : t.Canonical)
    (here : t.int? var = some d) (inside : other ∈ d) (different : other ≠ value) :
    ∃ changed u, remove var value t = .ok changed u := by
  rw [remove_apply here]
  split
  · exact ⟨_, _, rfl⟩
  rename_i member
  rw [not_not] at member
  split
  · rename_i decided
    obtain ⟨only, same⟩ := (canonical.int? here).isSingleton_iff.1 decided
    exact absurd (((same other).1 inside).trans ((same value).1 member).symm) different
  · exact ⟨_, _, rfl⟩

/-- A successful inclusion leaves the element in the lower bound. -/
theorem includeElement_eq_ok {element : Int}
    (run : includeElement var element t = .ok changed u) :
    ∃ d e, t.set? var = some d ∧ u.set? var = some e ∧ element ∈ e.glb ∧
      (∀ other, other ∈ e.glb ↔ other = element ∨ other ∈ d.glb) ∧ e.lub = d.lub := by
  cases here : t.set? var with
  | none =>
    rw [includeElement_of_none here] at run
    cases run
  | some d =>
    rw [includeElement_apply here] at run
    split at run
    · rename_i inside
      cases run
      exact ⟨d, d, rfl, here, inside, fun other => by grind, rfl⟩
    split at run
    · cases run
    · cases run
      exact ⟨d, _, rfl, set?_replace_self here, Elements.mem_insert.2 (.inl rfl),
        fun other => Elements.mem_insert, rfl⟩

/-- A successful exclusion leaves the element outside the upper bound. -/
theorem excludeElement_eq_ok {element : Int}
    (run : excludeElement var element t = .ok changed u) :
    ∃ d e, t.set? var = some d ∧ u.set? var = some e ∧ element ∉ e.lub ∧
      (∀ other, other ∈ e.lub ↔ other ∈ d.lub ∧ other ≠ element) ∧ e.glb = d.glb := by
  cases here : t.set? var with
  | none =>
    rw [excludeElement_of_none here] at run
    cases run
  | some d =>
    rw [excludeElement_apply here] at run
    split at run
    · rename_i outside
      cases run
      exact ⟨d, d, rfl, here, outside, fun other => by grind, rfl⟩
    split at run
    · cases run
    · cases run
      refine ⟨d, _, rfl, set?_replace_self here, ?_, fun other => Elements.mem_remove, rfl⟩
      exact fun member => (Elements.mem_remove.1 member).2 rfl

theorem exists_includeElement_eq_ok {element : Int} {d : SetDomain}
    (here : t.set? var = some d) (possible : element ∈ d.lub) :
    ∃ changed u, includeElement var element t = .ok changed u := by
  rw [includeElement_apply here]
  split
  · exact ⟨_, _, rfl⟩
  · exact ⟨_, _, rfl⟩

theorem exists_excludeElement_eq_ok {element : Int} {d : SetDomain}
    (here : t.set? var = some d) (outside : element ∉ d.glb) :
    ∃ changed u, excludeElement var element t = .ok changed u := by
  rw [excludeElement_apply here]
  split
  · exact ⟨_, _, rfl⟩
  · exact ⟨_, _, rfl⟩

/-! ## Only one variable is touched -/

theorem restrict_elsewhere {min max : Int} (canonical : t.Canonical)
    (run : restrict var min max t = .ok changed u) {other : VarId} (different : other ≠ var) :
    u.get? other = t.get? other := by
  obtain ⟨d, e, here, -, filled, left⟩ := restrict_eq_ok canonical run
  have formed := canonical.int? here
  have some : d.HasValue := by
    obtain ⟨value, inside⟩ := filled
    exact ⟨value, ((left value).1 inside).1⟩
  obtain ⟨low, high, least, greatest⟩ := formed.exists_bounds some
  rw [restrict_apply here least greatest] at run
  split at run
  · cases run
    rfl
  split at run
  · cases run
  split at run
  · cases run
  · cases run
    exact DomainTable.get?_replace_of_ne different

/-- An operation that looks first and then replaces one domain touches no other variable. -/
theorem get?_of_looked {p q : Prop} [Decidable p] [Decidable q] {first second : Bool} {d : Domain}
    (run : (if p then .ok first t
      else if q then .error .inconsistent t
      else .ok second (t.replace var d) :
        EStateM.Result Inconsistency DomainTable Bool) = .ok changed u)
    {other : VarId} (different : other ≠ var) : u.get? other = t.get? other := by
  split at run
  · cases run
    rfl
  split at run
  · cases run
  · cases run
    exact DomainTable.get?_replace_of_ne different

theorem remove_elsewhere {value : Int} (run : remove var value t = .ok changed u)
    {other : VarId} (different : other ≠ var) : u.get? other = t.get? other := by
  cases here : t.int? var with
  | none =>
    rw [remove_of_none here] at run
    cases run
  | some d =>
    rw [remove_apply here] at run
    exact get?_of_looked run different

theorem includeElement_elsewhere {element : Int}
    (run : includeElement var element t = .ok changed u) {other : VarId}
    (different : other ≠ var) : u.get? other = t.get? other := by
  cases here : t.set? var with
  | none =>
    rw [includeElement_of_none here] at run
    cases run
  | some d =>
    rw [includeElement_apply here] at run
    exact get?_of_looked run different

theorem excludeElement_elsewhere {element : Int}
    (run : excludeElement var element t = .ok changed u) {other : VarId}
    (different : other ≠ var) : u.get? other = t.get? other := by
  cases here : t.set? var with
  | none =>
    rw [excludeElement_of_none here] at run
    cases run
  | some d =>
    rw [excludeElement_apply here] at run
    exact get?_of_looked run different

/-! ## What stays above a smaller table

A table below the one that an operation runs on is still below what the operation leaves, as
long as it already is as the operation demands. -/

variable {p : DomainTable}

theorem within_of_restrict {min max : Int} (canonical : t.Canonical) (within : p.Within t)
    (allows : ∀ value, p.Holds var value → min ≤ value ∧ value ≤ max)
    (run : restrict var min max t = .ok changed u) : p.Within u := by
  have smaller := ((carries_restrict var min max).narrows canonical run).within
  apply within.of_elsewhere smaller (fun other => restrict_elsewhere canonical run)
  intro f g below above
  obtain ⟨d, e, here, there, -, left⟩ := restrict_eq_ok canonical run
  obtain rfl := Option.some.inj (above.symm.trans (DomainTable.int?_eq_some_iff.1 there))
  cases f with
  | set f =>
    obtain ⟨g, found, inner⟩ := within.larger below
    obtain rfl := Option.some.inj (found.symm.trans (DomainTable.int?_eq_some_iff.1 here))
    exact inner.elim
  | int f =>
    intro value inside
    have below := DomainTable.int?_eq_some_iff.2 below
    obtain ⟨d', found, inner⟩ := within.int? below
    obtain rfl := Option.some.inj (here.symm.trans found)
    exact (left value).2 ⟨inner value inside, allows value ⟨f, below, inside⟩⟩

theorem within_of_remove {value : Int} (canonical : t.Canonical) (within : p.Within t)
    (allows : ¬ p.Holds var value) (run : remove var value t = .ok changed u) : p.Within u := by
  have smaller := ((carries_remove var value).narrows canonical run).within
  apply within.of_elsewhere smaller (fun other => remove_elsewhere run)
  intro f g below above
  obtain ⟨d, e, here, there, left⟩ := remove_eq_ok canonical run
  obtain rfl := Option.some.inj (above.symm.trans (DomainTable.int?_eq_some_iff.1 there))
  cases f with
  | set f =>
    obtain ⟨g, found, inner⟩ := within.larger below
    obtain rfl := Option.some.inj (found.symm.trans (DomainTable.int?_eq_some_iff.1 here))
    exact inner.elim
  | int f =>
    intro other inside
    have below := DomainTable.int?_eq_some_iff.2 below
    obtain ⟨d', found, inner⟩ := within.int? below
    obtain rfl := Option.some.inj (here.symm.trans found)
    refine (left other).2 ⟨?_, inner other inside⟩
    rintro rfl
    exact allows ⟨f, below, inside⟩

theorem within_of_includeElement {element : Int} (canonical : t.Canonical)
    (within : p.Within t) (allows : ∀ f, p.set? var = some f → element ∈ f.glb)
    (run : includeElement var element t = .ok changed u) : p.Within u := by
  have smaller := ((carries_includeElement var element).narrows canonical run).within
  apply within.of_elsewhere smaller (fun other => includeElement_elsewhere run)
  intro f g below above
  obtain ⟨d, e, here, there, -, left, same⟩ := includeElement_eq_ok run
  obtain rfl := Option.some.inj (above.symm.trans (DomainTable.set?_eq_some_iff.1 there))
  obtain ⟨g, found, inner⟩ := within.larger below
  obtain rfl := Option.some.inj (found.symm.trans (DomainTable.set?_eq_some_iff.1 here))
  cases f with
  | int f => exact inner.elim
  | set f =>
    obtain ⟨lower, upper⟩ := inner
    refine ⟨fun other inside => ?_, by rwa [same]⟩
    rcases (left other).1 inside with rfl | inside
    · exact allows f (DomainTable.set?_eq_some_iff.2 below)
    · exact lower other inside

theorem within_of_excludeElement {element : Int} (canonical : t.Canonical)
    (within : p.Within t) (allows : ∀ f, p.set? var = some f → element ∉ f.lub)
    (run : excludeElement var element t = .ok changed u) : p.Within u := by
  have smaller := ((carries_excludeElement var element).narrows canonical run).within
  apply within.of_elsewhere smaller (fun other => excludeElement_elsewhere run)
  intro f g below above
  obtain ⟨d, e, here, there, -, left, same⟩ := excludeElement_eq_ok run
  obtain rfl := Option.some.inj (above.symm.trans (DomainTable.set?_eq_some_iff.1 there))
  obtain ⟨g, found, inner⟩ := within.larger below
  obtain rfl := Option.some.inj (found.symm.trans (DomainTable.set?_eq_some_iff.1 here))
  cases f with
  | int f => exact inner.elim
  | set f =>
    obtain ⟨lower, upper⟩ := inner
    refine ⟨by rwa [same], fun other inside => (left other).2 ⟨upper other inside, ?_⟩⟩
    rintro rfl
    exact allows f (DomainTable.set?_eq_some_iff.2 below) inside

end Narrowing

end StagedSearch
