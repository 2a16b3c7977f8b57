/-
# Choices and candidates

A choice is one branching decision about a variable. The candidates of a decision are
tried in a fixed order. They are generated on demand, because a variable may have far more
values than are ever tried; `Candidates.toList` says which choices are meant.
-/

import StagedSearch.Store.Basic

namespace StagedSearch

inductive Choice where
  /-- The variable takes the value. -/
  | assign (var : VarId) (value : Int)
  /-- The element is in the set. -/
  | takeIn (var : VarId) (element : Int)
  /-- The element is not in the set. -/
  | leaveOut (var : VarId) (element : Int)
deriving DecidableEq, Inhabited

namespace Choice

def var : Choice → VarId
  | assign var _ => var
  | takeIn var _ => var
  | leaveOut var _ => var

/-- Narrows the store to the choice at its current level. -/
def commit (choice : Choice) (s : Store) : Except Inconsistency Bool × Store :=
  match choice with
  | assign var value => s.assign var value
  | takeIn var element => s.includeElement var element
  | leaveOut var element => s.excludeElement var element

def render : Choice → String
  | assign var value => s!"{var.render} = {value}"
  | takeIn var element => s!"{element} in {var.render}"
  | leaveOut var element => s!"{element} notin {var.render}"

end Choice

/-- Choices that are still to be tried, in order. -/
inductive Candidates where
  /-- The values of the intervals, each from its least value on. -/
  | ascending (var : VarId) (intervals : List Interval)
  /-- The values of the intervals, each from its greatest value on. -/
  | descending (var : VarId) (intervals : List Interval)
  | listed (choices : List Choice)
deriving DecidableEq, Inhabited

namespace Candidates

/-- The choices that are meant. -/
def toList : Candidates → List Choice
  | ascending var intervals => (intervals.flatMap Interval.values).map (.assign var)
  | descending var intervals =>
    (intervals.flatMap fun i => i.largest i.count).map (.assign var)
  | listed choices => choices

def remaining : Candidates → Nat
  | ascending _ intervals => totalSize Interval.count intervals
  | descending _ intervals => totalSize Interval.count intervals
  | listed choices => choices.length

/-- Takes the least value off a list of intervals. -/
def nextAscending (var : VarId) : List Interval → Option (Choice × Candidates)
  | [] => none
  | i :: rest =>
    if i.min < i.max then some (.assign var i.min, ascending var (⟨i.min + 1, i.max⟩ :: rest))
    else if i.min = i.max then some (.assign var i.min, ascending var rest)
    else nextAscending var rest

/-- Takes the greatest value off the first of a list of intervals. -/
def nextDescending (var : VarId) : List Interval → Option (Choice × Candidates)
  | [] => none
  | i :: rest =>
    if i.min < i.max then some (.assign var i.max, descending var (⟨i.min, i.max - 1⟩ :: rest))
    else if i.min = i.max then some (.assign var i.max, descending var rest)
    else nextDescending var rest

def next? : Candidates → Option (Choice × Candidates)
  | ascending var intervals => nextAscending var intervals
  | descending var intervals => nextDescending var intervals
  | listed [] => none
  | listed (choice :: rest) => some (choice, listed rest)

theorem remaining_of_nextAscending {var : VarId} {intervals : List Interval} {choice : Choice}
    {rest : Candidates} (taken : nextAscending var intervals = some (choice, rest)) :
    rest.remaining < totalSize Interval.count intervals := by
  induction intervals with
  | nil => simp [nextAscending] at taken
  | cons i later ih =>
    unfold nextAscending at taken
    simp only [totalSize_cons]
    split at taken
    · obtain ⟨-, rfl⟩ := Prod.mk.inj (Option.some.inj taken)
      simp only [remaining, totalSize_cons, Interval.count]
      omega
    · split at taken
      · obtain ⟨-, rfl⟩ := Prod.mk.inj (Option.some.inj taken)
        simp only [remaining, Interval.count]
        omega
      · exact Nat.lt_of_lt_of_le (ih taken) (Nat.le_add_left _ _)

theorem remaining_of_nextDescending {var : VarId} {intervals : List Interval} {choice : Choice}
    {rest : Candidates} (taken : nextDescending var intervals = some (choice, rest)) :
    rest.remaining < totalSize Interval.count intervals := by
  induction intervals with
  | nil => simp [nextDescending] at taken
  | cons i later ih =>
    unfold nextDescending at taken
    simp only [totalSize_cons]
    split at taken
    · obtain ⟨-, rfl⟩ := Prod.mk.inj (Option.some.inj taken)
      simp only [remaining, totalSize_cons, Interval.count]
      omega
    · split at taken
      · obtain ⟨-, rfl⟩ := Prod.mk.inj (Option.some.inj taken)
        simp only [remaining, Interval.count]
        omega
      · exact Nat.lt_of_lt_of_le (ih taken) (Nat.le_add_left _ _)

/-- Taking a choice leaves fewer of them. -/
theorem remaining_of_next? {candidates rest : Candidates} {choice : Choice}
    (taken : candidates.next? = some (choice, rest)) :
    rest.remaining < candidates.remaining := by
  match candidates with
  | ascending _ _ => exact remaining_of_nextAscending taken
  | descending _ _ => exact remaining_of_nextDescending taken
  | listed [] => simp [next?] at taken
  | listed (_ :: later) =>
    obtain ⟨-, rfl⟩ := Prod.mk.inj (Option.some.inj taken)
    simp [remaining]

/-- The first `number` choices, without making the others. -/
def take : Nat → Candidates → List Choice
  | 0, _ => []
  | number + 1, candidates =>
    match candidates.next? with
    | none => []
    | some (choice, rest) => choice :: take number rest

end Candidates

/-- The candidates of one decision, and how many there are as it is reported. -/
structure Branching where
  size : Nat
  candidates : Candidates
deriving DecidableEq, Inhabited

namespace Branching

def none : Branching := ⟨0, .listed []⟩

def ofList (choices : List Choice) : Branching := ⟨choices.length, .listed choices⟩

end Branching

end StagedSearch
