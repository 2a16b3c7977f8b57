/-
# The store

The store holds the declared variables, their domains, and the imposed constraints.
Opening a level remembers the state, and closing it takes back all narrowing since then
and every constraint imposed since then. Declared variables stay.
-/

import StagedSearch.Store.Propagation

namespace StagedSearch

inductive DomainFault where
  | reversedBounds (min max : Int)
  | noValues
  | boundsNotNested
deriving DecidableEq, Inhabited

def DomainFault.message : DomainFault → String
  | .reversedBounds min max => s!"{min}..{max} is empty"
  | .noValues => "no values"
  | .boundsNotNested => "glb is not a subset of lub"

inductive StoreError where
  /-- A declaration has no admissible value. -/
  | invalidDomain (name : String) (fault : DomainFault)
  /-- The store has no such variable. -/
  | unknownVariable (var : VarId)
  /-- The request does not fit the kind of the variable. -/
  | kindMismatch (var : VarId) (expected actual : VarKind)
deriving DecidableEq, Inhabited

def StoreError.message : StoreError → String
  | .invalidDomain name fault => s!"Invalid domain for {name}: {fault.message}"
  | .unknownVariable var => s!"Unknown variable id {var.render}"
  | .kindMismatch var expected actual =>
    s!"Variable {var.render} is {actual.render}, expected {expected.render}"

structure Imposed where
  level : Nat
  constraint : Constraint
deriving DecidableEq, Inhabited

/-- Variables, domains and constraints; the constraints in the order in which they were
imposed. -/
structure Store where
  declarations : Array Variable
  domains : DomainTable
  constraints : List Imposed
deriving DecidableEq, Inhabited

namespace Store

def empty : Store := ⟨#[], DomainTable.empty, []⟩

def size (s : Store) : Nat := s.declarations.size

/-- The number of open levels. -/
def level (s : Store) : Nat := s.domains.level

def ids (s : Store) : List VarId := (List.range s.size).map VarId.mk

/-- Adds a variable without looking at its domain. -/
def declare (s : Store) (name : String) (kind : VarKind) (domain : Domain) : VarId × Store :=
  (⟨s.size⟩,
    { s with declarations := s.declarations.push ⟨name, kind⟩, domains := s.domains.push domain })

/-- Adds an integer variable over `min..max` without looking at the bounds. -/
def addInt (s : Store) (name : String) (min max : Int) : VarId × Store :=
  s.declare name .int (.int (IntDomain.interval min max))

def declareInt (s : Store) (name : String) (min max : Int) : Except StoreError (VarId × Store) :=
  if max < min then .error (.invalidDomain name (.reversedBounds min max))
  else .ok (s.addInt name min max)

def declareValues (s : Store) (name : String) (values : List Int) :
    Except StoreError (VarId × Store) :=
  let domain := IntDomain.ofValues values
  if domain.isEmpty then .error (.invalidDomain name .noValues)
  else .ok (s.declare name .int (.int domain))

def declareBool (s : Store) (name : String) : VarId × Store :=
  s.declare name .bool (.int (IntDomain.interval 0 1))

def declareSet (s : Store) (name : String) (glb lub : List Int) :
    Except StoreError (VarId × Store) :=
  match SetDomain.ofBounds? glb lub with
  | none => .error (.invalidDomain name .boundsNotNested)
  | some domain => .ok (s.declare name .set (.set domain))

def declaration? (s : Store) (var : VarId) : Option Variable := s.declarations[var.index]?

/-- The declaration of a variable, which has to exist. -/
def declaration (s : Store) (var : VarId) : Except StoreError Variable :=
  match s.declaration? var with
  | some v => .ok v
  | none => .error (.unknownVariable var)

def domain (s : Store) (var : VarId) : Except StoreError Domain :=
  match s.domains.get? var with
  | some d => .ok d
  | none => .error (.unknownVariable var)

def intDomain (s : Store) (var : VarId) : Except StoreError IntDomain := do
  let v ← s.declaration var
  match ← s.domain var with
  | .int d => return d
  | .set _ => throw (.kindMismatch var .int v.kind)

/-- Whether a variable is decided. -/
def isSingleton (s : Store) (var : VarId) : Bool :=
  match s.domains.get? var with
  | some d => d.isSingleton
  | none => false

/-- The value of a decided variable. -/
def value? (s : Store) (var : VarId) : Option Value :=
  match s.declaration? var, s.domains.get? var with
  | some ⟨_, .int⟩, some (.int d) => d.value?.map .int
  | some ⟨_, .bool⟩, some (.int d) => d.value?.map fun v => .bool (v != 0)
  | some ⟨_, .set⟩, some (.set d) => if d.isSingleton then some (.set d.glb) else none
  | _, _ => none

/-- Adds a constraint at the current level without looking at its scope. -/
def addConstraint (s : Store) (constraint : Constraint) : Store :=
  { s with constraints := s.constraints ++ [⟨s.level, constraint⟩] }

/-- What the imposed constraints say, without their levels. -/
def rules (s : Store) : List Constraint := s.constraints.map Imposed.constraint

@[simp]
theorem size_addInt (s : Store) (name : String) (min max : Int) :
    (s.addInt name min max).2.size = s.size + 1 := Array.size_push _

@[simp]
theorem rules_addInt (s : Store) (name : String) (min max : Int) :
    (s.addInt name min max).2.rules = s.rules := rfl

@[simp]
theorem size_addConstraint (s : Store) (constraint : Constraint) :
    (s.addConstraint constraint).size = s.size := rfl

@[simp]
theorem rules_addConstraint (s : Store) (constraint : Constraint) :
    (s.addConstraint constraint).rules = s.rules ++ [constraint] := List.map_append

/-- Imposes a constraint at the current level. Every variable of its scope has to exist. -/
def impose (s : Store) (constraint : Constraint) : Except StoreError Store :=
  match constraint.scope.find? fun var => (s.declaration? var).isNone with
  | some var => .error (.unknownVariable var)
  | none => .ok (s.addConstraint constraint)

/-- Propagates all constraints, and says whether none of them failed. -/
def consistency (s : Store) : Bool × Store :=
  let (consistent, domains) := s.domains.propagateAll (s.constraints.map Imposed.constraint)
  (consistent, { s with domains })

def pushLevel (s : Store) : Store := { s with domains := s.domains.pushLevel }

/-- Closes the innermost level: its narrowing and its constraints are gone. -/
def popLevel (s : Store) : Store :=
  let domains := s.domains.popLevel
  { s with domains, constraints := s.constraints.filter (·.level ≤ domains.level) }

/-- Narrows the domains of the store by one operation. The store keeps what the operation
changed also when it fails. -/
def narrow (s : Store) (operation : Narrowing Bool) : Except Inconsistency Bool × Store :=
  match operation s.domains with
  | .ok changed domains => (.ok changed, { s with domains })
  | .error e domains => (.error e, { s with domains })

/-- Decides the value of an integer or boolean variable. -/
def assign (s : Store) (var : VarId) (value : Int) : Except Inconsistency Bool × Store :=
  s.narrow (Narrowing.restrict var value value)

def removeValue (s : Store) (var : VarId) (value : Int) : Except Inconsistency Bool × Store :=
  s.narrow (Narrowing.remove var value)

/-- Lowers the upper bound of an integer or boolean variable. -/
def restrictMax (s : Store) (var : VarId) (max : Int) : Except Inconsistency Bool × Store :=
  s.narrow (Narrowing.restrict var Signed64.least max)

def includeElement (s : Store) (var : VarId) (element : Int) :
    Except Inconsistency Bool × Store :=
  s.narrow (Narrowing.includeElement var element)

def excludeElement (s : Store) (var : VarId) (element : Int) :
    Except Inconsistency Bool × Store :=
  s.narrow (Narrowing.excludeElement var element)

/-- Every decided variable with its value, in the order of declaration. -/
def decidedValues (s : Store) : List (VarId × Value) :=
  s.ids.filterMap fun var => (s.value? var).map (var, ·)

end Store

end StagedSearch
