/-
# The domain table and its trail

The table holds the domain of every variable. Levels are opened and closed like a stack;
the first time a variable changes inside a level its former domain is put on that level's
trail, and closing the level puts it back. A stamp per variable names the level that
saved it last, and the trail restores the stamps too.

A narrowing operation either says whether it changed the domain or fails. It fails on a
variable without a domain of the right kind, and where no value would remain. Failing
does not undo what was changed before: whoever opened the level closes it.
-/

import StagedSearch.Domain.Basic
import StagedSearch.Store.Variable

namespace StagedSearch

/-- A domain has no value left, or a domain of another kind was asked for. Search takes
it as the sign to try something else. -/
inductive Inconsistency where
  | inconsistent
deriving DecidableEq, Inhabited

def Inconsistency.message : Inconsistency → String
  | .inconsistent => "inconsistent store"

/-- What a variable had before it changed inside a level. -/
structure TrailEntry where
  var : VarId
  domain : Domain
  savedAt : Option Nat
deriving DecidableEq, Inhabited

/-- The domains of all variables, the level at which each was saved last, and the trail of
each open level, the innermost level and the latest entry first. -/
structure DomainTable where
  domains : Array Domain
  savedAt : Array (Option Nat)
  trail : List (List TrailEntry)
deriving DecidableEq, Inhabited

/-- An operation that narrows a table. What it changed stays when it fails. -/
abbrev Narrowing := EStateM Inconsistency DomainTable

namespace DomainTable

def empty : DomainTable := ⟨#[], #[], []⟩

def size (t : DomainTable) : Nat := t.domains.size

/-- The number of open levels. -/
def level (t : DomainTable) : Nat := t.trail.length

/-- Adds a variable at the end. No level saves it until it changes. -/
def push (t : DomainTable) (domain : Domain) : DomainTable :=
  { t with domains := t.domains.push domain, savedAt := t.savedAt.push none }

def get? (t : DomainTable) (var : VarId) : Option Domain := t.domains[var.index]?

def int? (t : DomainTable) (var : VarId) : Option IntDomain := (t.get? var).bind Domain.asInt?

def set? (t : DomainTable) (var : VarId) : Option SetDomain := (t.get? var).bind Domain.asSet?

def pushLevel (t : DomainTable) : DomainTable := { t with trail := [] :: t.trail }

/-- Puts one variable back. -/
def restore (t : DomainTable) (entry : TrailEntry) : DomainTable :=
  { t with
    domains := t.domains.setIfInBounds entry.var.index entry.domain
    savedAt := t.savedAt.setIfInBounds entry.var.index entry.savedAt }

/-- Closes the innermost level and puts back what changed in it, the latest change first.
With no level open nothing happens. -/
def popLevel (t : DomainTable) : DomainTable :=
  match t.trail with
  | [] => t
  | entries :: outer => entries.foldl restore { t with trail := outer }

/-- Puts the domain of a variable on the trail of the innermost level, unless that level
has it already. Outside of all levels nothing is ever put back. -/
def save (t : DomainTable) (var : VarId) : DomainTable :=
  match t.trail, t.domains[var.index]?, t.savedAt[var.index]? with
  | entries :: outer, some domain, some savedAt =>
    if savedAt = some t.level then t
    else
      { t with
        savedAt := t.savedAt.setIfInBounds var.index (some t.level)
        trail := (⟨var, domain, savedAt⟩ :: entries) :: outer }
  | _, _, _ => t

/-- Replaces the domain of a variable after saving it. -/
def replace (t : DomainTable) (var : VarId) (domain : Domain) : DomainTable :=
  let saved := t.save var
  { saved with domains := saved.domains.setIfInBounds var.index domain }

/-- How far the domains can still shrink, all together. -/
def weight (t : DomainTable) : Nat := totalSize Domain.weight t.domains.toList

end DomainTable

namespace Narrowing

def fail {α : Type} : Narrowing α := throw .inconsistent

/-- Takes a value that has to be there. -/
def require {α : Type} : Option α → Narrowing α
  | some a => pure a
  | none => fail

/-- The integer domain of a variable, which has to have one. -/
def intDomain (var : VarId) : Narrowing IntDomain := do require ((← get).int? var)

/-- The set domain of a variable, which has to have one. -/
def setDomain (var : VarId) : Narrowing SetDomain := do require ((← get).set? var)

/-- The least and the greatest value of a variable, whose domain must not be empty. -/
def bounds (var : VarId) : Narrowing (Int × Int) := do
  let d ← intDomain var
  require (do return (← d.min?, ← d.max?))

def value? (var : VarId) : Narrowing (Option Int) := do return (← intDomain var).value?

/-- Keeps the values within `min..max`. When the bounds overlap but no value lies between
them, the operation fails and the emptied domain stays in the table. -/
def restrict (var : VarId) (min max : Int) : Narrowing Bool := do
  let (low, high) ← bounds var
  if min ≤ low ∧ high ≤ max then return false
  if high < min ∨ max < low then fail
  let (narrowed, changed) := (← intDomain var).restrict min max
  modify (·.replace var (.int narrowed))
  if narrowed.isEmpty then fail
  return changed

/-- Removes a value. The last value of a domain cannot be removed. -/
def remove (var : VarId) (value : Int) : Narrowing Bool := do
  let d ← intDomain var
  if !d.contains value then return false
  if d.isSingleton then fail
  let (narrowed, changed) := d.remove value
  modify (·.replace var (.int narrowed))
  return changed

def includeElement (var : VarId) (element : Int) : Narrowing Bool := do
  let d ← setDomain var
  if d.glb.contains element then return false
  let (narrowed, changed) ← require (d.include? element)
  modify (·.replace var (.set narrowed))
  return changed

def excludeElement (var : VarId) (element : Int) : Narrowing Bool := do
  let d ← setDomain var
  if !d.lub.contains element then return false
  let (narrowed, changed) ← require (d.exclude? element)
  modify (·.replace var (.set narrowed))
  return changed

end Narrowing

end StagedSearch
