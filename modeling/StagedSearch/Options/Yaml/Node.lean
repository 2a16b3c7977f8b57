/-
# Nodes of YAML

A node is a scalar, a sequence, a mapping, or a reference to a node with an anchor. Nodes are
read off the tokens of a text by recursive descent. A node without any token is an empty
plain scalar where the signs around it show that one belongs there.

An anchor gets a number, and a reference stands for the number that the name has in front of
it. An anchor of a name that is known gets the number of the next new name, so the next new
name shares it; of several anchors with one number the last one counts.
-/

import StagedSearch.Options.Yaml.Layout

namespace StagedSearch

namespace Yaml

structure Scalar where
  tag : Option String
  style : ScalarStyle
  text : String
deriving DecidableEq, Inhabited

/-- The scalar that nothing stands for. -/
def Scalar.empty : Scalar := ⟨none, .plain, ""⟩

/-- A node. Collections are kept without their tags. -/
inductive Node where
  | scalar (scalar : Scalar)
  | reference (number : Nat)
  | sequence (items : List Node)
  | mapping (pairs : List (Node × Node))
deriving Inhabited

/-- The anchors of a text: the number of each name, and what stands at each number, the latest
first. Of collections nothing is kept. -/
structure Anchors where
  numbers : List (String × Nat)
  scalars : List (Nat × Option Scalar)
deriving DecidableEq, Inhabited

namespace Anchors

def empty : Anchors := ⟨[], []⟩

def put (name : String) (scalar : Option Scalar) (a : Anchors) : Anchors :=
  let number := a.numbers.length
  ⟨(name, number) :: a.numbers.filter (·.1 ≠ name), (number, scalar) :: a.scalars⟩

def number? (name : String) (a : Anchors) : Option Nat := a.numbers.lookup name

/-- The scalar that a node is or stands for. -/
def scalar? (a : Anchors) : Node → Option Scalar
  | .scalar s => some s
  | .reference number => (a.scalars.lookup number).join
  | _ => none

end Anchors

/-- Tokens that are being read, the anchors so far, and the meanings of tag handles. -/
structure Composition where
  tokens : List Token
  anchors : Anchors
  handles : List (String × String)
deriving DecidableEq, Inhabited

abbrev Composing := StateT Composition Option

namespace Composing

def refuse {α : Type} : Composing α := fun _ => none

/-- The next token, which stays where it is. -/
def peek? : Composing (Option Token) := return (← get).tokens.head?

def skip : Composing Unit := modify fun c => { c with tokens := c.tokens.drop 1 }

/-- Passes over a token, if it comes next. -/
def accept (t : Token) : Composing Bool := do
  if (← peek?) = some t then
    skip
    return true
  else return false

/-- Passes over a token that has to come next. -/
def expect (t : Token) : Composing Unit := do
  if !(← accept t) then refuse

/-- The whole name of a tag. -/
def resolve (handle rest : String) : Composing String := do
  if handle = "" then return rest
  match (← get).handles.lookup handle with
  | some meaning => return meaning ++ rest
  | none => refuse

def anchor (name : Option String) (scalar : Option Scalar) : Composing Unit :=
  match name with
  | some name => modify fun c => { c with anchors := c.anchors.put name scalar }
  | none => pure ()

def anchor? : Composing (Option String) := do
  match ← peek? with
  | some (.anchor name) =>
    skip
    return some name
  | _ => return none

def tag? : Composing (Option String) := do
  match ← peek? with
  | some (.tag handle rest) =>
    skip
    return some (← resolve handle rest)
  | _ => return none

/-- Reads an anchor and a tag, in any order; both may be missing. -/
def properties : Composing (Option String × Option String) := do
  match ← anchor? with
  | some name => return (some name, ← tag?)
  | none =>
    let tag ← tag?
    return (← anchor?, tag)

mutual

/-- Reads a node. Blocks may stand only outside of brackets, and a sequence behind a key needs
no indentation. The first argument counts down the nesting and the tokens. -/
def node (block loose : Bool) : Nat → Composing Node
  | 0 => refuse
  | count + 1 => do
    match ← peek? with
    | some (.reference name) =>
      skip
      match (← get).anchors.number? name with
      | some number => return .reference number
      | none => refuse
    | _ =>
      let (name, tag) ← properties
      let next ← peek?
      if next = some .dash && loose then
        anchor name none
        return .sequence (← looseItems count)
      else if next = some .flowSequence then
        skip
        anchor name none
        return .sequence (← flowItems true count)
      else if next = some .flowMapping then
        skip
        anchor name none
        return .mapping (← flowPairs true count)
      else if next = some .blockSequence && block then
        skip
        anchor name none
        return .sequence (← blockItems count)
      else if next = some .blockMapping && block then
        skip
        anchor name none
        return .mapping (← blockPairs count)
      else
        match next with
        | some (.scalar style text) =>
          skip
          let scalar : Scalar := ⟨tag, style, text⟩
          anchor name scalar
          return .scalar scalar
        | _ =>
          if name.isNone && tag.isNone then refuse
          let scalar : Scalar := { Scalar.empty with tag }
          anchor name scalar
          return .scalar scalar

/-- Reads a node, unless one of some tokens comes next. -/
def nodeUnless (stops : List Token) (block loose : Bool) : Nat → Composing Node
  | 0 => refuse
  | count + 1 => do
    if (← peek?).any stops.contains then return .scalar Scalar.empty
    else node block loose count

def blockItems : Nat → Composing (List Node)
  | 0 => refuse
  | count + 1 => do
    if ← accept .dash then
      let item ← nodeUnless [.dash, .blockEnd] true false count
      return item :: (← blockItems count)
    else
      expect .blockEnd
      return []

/-- Reads the elements of a sequence at the indentation of its key. -/
def looseItems : Nat → Composing (List Node)
  | 0 => refuse
  | count + 1 => do
    if ← accept .dash then
      let item ← nodeUnless [.dash, .key, .value, .blockEnd] true false count
      return item :: (← looseItems count)
    else return []

def blockPairs : Nat → Composing (List (Node × Node))
  | 0 => refuse
  | count + 1 => do
    if ← accept .key then
      let key ← nodeUnless [.key, .value, .blockEnd] true true count
      let value ←
        if ← accept .value then nodeUnless [.key, .value, .blockEnd] true true count
        else pure (.scalar Scalar.empty)
      return (key, value) :: (← blockPairs count)
    else
      expect .blockEnd
      return []

/-- Reads the value behind a key between brackets, if there is one. -/
def flowValue (close : Token) : Nat → Composing Node
  | 0 => refuse
  | count + 1 => do
    if ← accept .value then nodeUnless [.comma, close] false false count
    else return .scalar Scalar.empty

/-- Reads the elements of a sequence in brackets. A key and its value are a mapping of one
pair; where a key is missing, the token that shows it is passed over. -/
def flowItems (first : Bool) : Nat → Composing (List Node)
  | 0 => refuse
  | count + 1 => do
    if ← accept .flowSequenceEnd then return []
    if !first then expect .comma
    if ← accept .flowSequenceEnd then return []
    if ← accept .key then
      let missing := (← peek?).any [.value, .comma, .flowSequenceEnd].contains
      let key ←
        if missing then do
          skip
          pure (.scalar Scalar.empty)
        else node false false count
      let value ← flowValue .flowSequenceEnd count
      return .mapping [(key, value)] :: (← flowItems false count)
    else
      let item ← node false false count
      return item :: (← flowItems false count)

/-- Reads the keys and values of a mapping in braces. A key that no sign announces and no
colon follows has an empty value. -/
def flowPairs (first : Bool) : Nat → Composing (List (Node × Node))
  | 0 => refuse
  | count + 1 => do
    if ← accept .flowMappingEnd then return []
    if !first then expect .comma
    if ← accept .flowMappingEnd then return []
    if ← accept .key then
      let key ← nodeUnless [.value, .comma, .flowMappingEnd] false false count
      let value ← flowValue .flowMappingEnd count
      return (key, value) :: (← flowPairs false count)
    else
      let key ← node false false count
      return (key, .scalar Scalar.empty) :: (← flowPairs false count)

end

end Composing

end Yaml

end StagedSearch
