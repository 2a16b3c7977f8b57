/-
# Names of a model

The dictionary of a model: which variables and arrays its names stand for, which variables
have to be decided, and what is written for a solution. Decision variables and outputs
keep the order in which they were declared, which settles every default order.
-/

import StagedSearch.Store.Basic

namespace StagedSearch

inductive OutputItem where
  | single (var : VarId)
  | array (name : String) (vars : List VarId)
deriving DecidableEq, Inhabited

/-- The dictionary of a model. Of two entries with one name the latest counts; it stands
first. -/
structure Names where
  scalars : List (String × VarId)
  arrays : List (String × List VarId)
  decisions : List VarId
  outputs : List OutputItem
deriving DecidableEq, Inhabited

namespace Names

def empty : Names := ⟨[], [], [], []⟩

def addVariable (n : Names) (name : String) (var : VarId) : Names :=
  { n with scalars := (name, var) :: n.scalars }

def addArray (n : Names) (name : String) (vars : List VarId) : Names :=
  { n with arrays := (name, vars) :: n.arrays }

/-- Declares a decision variable; declaring it again changes nothing. -/
def addDecision (n : Names) (var : VarId) : Names :=
  if n.decisions.contains var then n else { n with decisions := n.decisions ++ [var] }

def addDecisions (n : Names) (vars : List VarId) : Names := vars.foldl addDecision n

def addOutput (n : Names) (item : OutputItem) : Names :=
  { n with outputs := n.outputs ++ [item] }

/-- Every variable of a store under its own name, to be decided and to be written. -/
def ofStore (s : Store) : Names :=
  s.ids.foldl
    (fun n var =>
      match s.declaration? var with
      | some v => ((n.addVariable v.name var).addDecision var).addOutput (.single var)
      | none => n)
    empty

def scalar? (n : Names) (name : String) : Option VarId := n.scalars.lookup name

def array? (n : Names) (name : String) : Option (List VarId) := n.arrays.lookup name

/-- The variables that a name stands for: an array before a single variable. -/
def resolve? (n : Names) (name : String) : Option (List VarId) :=
  match n.array? name with
  | some vars => some vars
  | none => (n.scalar? name).map ([·])

def isDecision (n : Names) (var : VarId) : Bool := n.decisions.contains var

/-- Dictionaries that are made entry by entry. -/
inductive Declared : Names → Prop
  | empty : Declared empty
  | scalar {n : Names} (made : Declared n) (name : String) (var : VarId) :
      Declared (n.addVariable name var)
  | array {n : Names} (made : Declared n) (name : String) (vars : List VarId) :
      Declared (n.addArray name vars)
  | decision {n : Names} (made : Declared n) (var : VarId) : Declared (n.addDecision var)
  | output {n : Names} (made : Declared n) (item : OutputItem) : Declared (n.addOutput item)

end Names

end StagedSearch
