/-
# Constraints

A constraint relates variables of the store. What it demands is stated over the values of
an assignment (`Holds`), apart from the way in which it narrows domains. A variable that
the assignment gives no integer, such as a set variable, satisfies no constraint.
-/

import StagedSearch.Number.Total
import StagedSearch.Store.Variable

namespace StagedSearch

/-- A relation between variables. A variable may occur several times in it. -/
inductive Constraint where
  /-- `x + y = 0` -/
  | negation (x y : VarId)
  /-- `x ≠ y` -/
  | notEqual (x y : VarId)
  /-- no two positions of the list take the same value -/
  | allDifferent (vars : List VarId)
  /-- `x < y` -/
  | lessThan (x y : VarId)
  /-- the terms add up to the total -/
  | sumEquals (terms : List VarId) (total : VarId)
deriving DecidableEq, Inhabited

/-- A choice of values for the variables; a variable may have none. -/
abbrev Assignment := VarId → Option Value

def Assignment.int? (assignment : Assignment) (var : VarId) : Option Int :=
  (assignment var).bind Value.asInt?

namespace Constraint

def name : Constraint → String
  | negation _ _ => "negation"
  | notEqual _ _ => "not_equal"
  | allDifferent _ => "all_different"
  | lessThan _ _ => "less_than"
  | sumEquals _ _ => "sum_equals"

/-- The variables that the constraint reads or narrows, as often as they occur. -/
def scope : Constraint → List VarId
  | negation x y => [x, y]
  | notEqual x y => [x, y]
  | allDifferent vars => vars
  | lessThan x y => [x, y]
  | sumEquals terms total => terms ++ [total]

/-- What the constraint demands of the integers that stand at the places of its scope. -/
def Relates : Constraint → List Int → Prop
  | negation _ _, values => ∃ a b, values = [a, b] ∧ a + b = 0
  | notEqual _ _, values => ∃ a b, values = [a, b] ∧ a ≠ b
  | allDifferent _, values => values.Nodup
  | lessThan _ _, values => ∃ a b, values = [a, b] ∧ a < b
  | sumEquals _ _, values => ∃ terms total, values = terms ++ [total] ∧ sumOf terms = total

/-- An assignment satisfies a constraint when it gives an integer to every place of the
scope and the constraint relates these integers. -/
def Holds (c : Constraint) (assignment : Assignment) : Prop :=
  ∃ values : List Int,
    c.scope.map assignment.int? = values.map some ∧ c.Relates values

end Constraint

end StagedSearch
