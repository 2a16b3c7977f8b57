/-
# Variables and their values

A variable is known by its position in the order of declaration. Its kind says which
values it takes; a boolean takes its values from the integers 0 and 1.
-/

import StagedSearch.Domain.SetDomain

namespace StagedSearch

/-- A variable, by its position in the order of declaration. -/
structure VarId where
  index : Nat
deriving DecidableEq, Inhabited

def VarId.render (var : VarId) : String := s!"#{var.index}"

/-- What a variable ranges over. -/
inductive VarKind where
  | int
  | bool
  | set
deriving DecidableEq, Inhabited

def VarKind.render : VarKind → String
  | .int => "int"
  | .bool => "bool"
  | .set => "set"

structure Variable where
  name : String
  kind : VarKind
deriving DecidableEq, Inhabited

inductive Value where
  | int (value : Int)
  | bool (value : Bool)
  | set (elements : Elements)
deriving DecidableEq, Inhabited

namespace Value

/-- The value as an integer; a boolean counts as 0 or 1, and a set as none. -/
def asInt? : Value → Option Int
  | .int value => some value
  | .bool value => some (if value then 1 else 0)
  | .set _ => none

def render : Value → String
  | .int value => toString value
  | .bool value => if value then "true" else "false"
  | .set elements => Elements.render elements

end Value

end StagedSearch
