/-
# Propagation

Each constraint has a rule that narrows the domains of its scope to values it does not
exclude, and that says whether anything changed. The rules are applied in the order in
which the constraints were imposed, sweep after sweep, until a sweep changes nothing. A
rule that fails ends the propagation, and what was narrowed before stays narrowed.
-/

import StagedSearch.Store.Constraint
import StagedSearch.Store.DomainTable

namespace StagedSearch

namespace Narrowing

/-- Applies one operation per element, in order, and says whether any of them changed the
table. -/
def anyChange {α : Type} (operation : α → Narrowing Bool) : List α → Narrowing Bool
  | [] => pure false
  | a :: rest => do
    let first ← operation a
    let later ← anyChange operation rest
    return first || later

/-- The bounds of `-v` for `v` in `low..high`. The negative of the least value lies outside
the range: as an upper bound it is clipped, and as a lower bound nothing is left. -/
def negatedBounds (low high : Int) : Narrowing (Int × Int) := do
  let min ← require (Signed64.checked (-high))
  return (min, (Signed64.checked (-low)).getD Signed64.greatest)

/-- `x + y = 0`, by the bounds of either side. Once `y` is decided so is `x`. -/
def negation (x y : VarId) : Narrowing Bool := do
  let (yMin, yMax) ← bounds y
  let (low, high) ← negatedBounds yMin yMax
  let first ← restrict x low high
  let (xMin, xMax) ← bounds x
  let (low, high) ← negatedBounds xMin xMax
  let second ← restrict y low high
  match ← value? y with
  | none => return first || second
  | some v =>
    let opposite ← require (Signed64.checked (-v))
    let third ← restrict x opposite opposite
    return first || second || third

def removeDecided (decided other : VarId) : Narrowing Bool := do
  match ← value? decided with
  | none => return false
  | some v => remove other v

/-- `x ≠ y`, from either side. -/
def notEqual (x y : VarId) : Narrowing Bool := do
  let first ← removeDecided x y
  let second ← removeDecided y x
  return first || second

/-- Visits the places of a list in turn; where the variable is decided, its value is
removed from the variables at all other places. -/
def separate (before : List VarId) : List VarId → Narrowing Bool
  | [] => pure false
  | x :: after => do
    let here ←
      match ← value? x with
      | none => pure false
      | some v => anyChange (fun y => remove y v) (before ++ after)
    let later ← separate (before ++ [x]) after
    return here || later

/-- `x < y`, by the upper bound of `y` and the lower bound of `x`. -/
def lessThan (x y : VarId) : Narrowing Bool := do
  let (_, yMax) ← bounds y
  let below ← require (Signed64.checked (yMax - 1))
  let first ← restrict x Signed64.least below
  let (xMin, _) ← bounds x
  let above ← require (Signed64.checked (xMin + 1))
  let second ← restrict y above Signed64.greatest
  return first || second

def allBounds : List VarId → Narrowing (List (Int × Int))
  | [] => pure []
  | var :: rest => do
    let here ← bounds var
    let later ← allBounds rest
    return here :: later

/-- The terms add up to the total. The bounds of the terms are read once at the start; the
total is narrowed first, and then every term to what the total and the other terms leave
it. Sums are exact, and a bound outside the range is moved to its end. -/
def sumEquals (terms : List VarId) (total : VarId) : Narrowing Bool := do
  let spans ← allBounds terms
  let sumMin := sumOf (spans.map Prod.fst)
  let sumMax := sumOf (spans.map Prod.snd)
  let first ← restrict total (Signed64.clamp sumMin) (Signed64.clamp sumMax)
  let (totalMin, totalMax) ← bounds total
  let later ← anyChange
    (fun (term, (low, high)) =>
      restrict term (Signed64.clamp (totalMin - (sumMax - high)))
        (Signed64.clamp (totalMax - (sumMin - low))))
    (terms.zip spans)
  return first || later

end Narrowing

/-- Narrows the domains in the scope of a constraint, and says whether anything changed. -/
def Constraint.propagate : Constraint → Narrowing Bool
  | .negation x y => Narrowing.negation x y
  | .notEqual x y => Narrowing.notEqual x y
  | .allDifferent vars => Narrowing.separate [] vars
  | .lessThan x y => Narrowing.lessThan x y
  | .sumEquals terms total => Narrowing.sumEquals terms total

namespace DomainTable

/-- Applies every constraint once, in order. -/
def sweep (constraints : List Constraint) : Narrowing Bool :=
  Narrowing.anyChange Constraint.propagate constraints

/-- Sweeps until nothing changes, and says whether no constraint failed. A sweep that
changes the table leaves less to shrink, so the repetition ends. -/
def propagateAll (constraints : List Constraint) (t : DomainTable) : Bool × DomainTable :=
  match sweep constraints t with
  | .error _ t' => (false, t')
  | .ok false t' => (true, t')
  | .ok true t' =>
    if t'.weight < t.weight then propagateAll constraints t' else (true, t')
termination_by t.weight

end DomainTable

end StagedSearch
