/-
# YAML documents

A text holds a document: directives, which need a line of dashes behind them, and a node. Lines
of dots may follow it. A text with more than one document is refused, because it does not say
which one is meant.
-/

import StagedSearch.Options.Yaml.Node

namespace StagedSearch

namespace Yaml

/-- A document: its node, and the anchors in it. A text without any token has no node. -/
structure Document where
  root : Option Node
  anchors : Anchors
deriving Inhabited

namespace Composing

/-- The meanings of tag handles that no directive changes. -/
def commonHandles : List (String × String) := [("!", "!"), ("!!", "tag:yaml.org,2002:")]

/-- Reads directives: the version once at most, and no handle twice. Gives the handles. The
last argument counts down the tokens. -/
def directives (versioned : Bool) (handles : List (String × String)) :
    Nat → Composing (Bool × List (String × String))
  | 0 => refuse
  | count + 1 => do
    match ← peek? with
    | some (.version major minor) =>
      if versioned || major ≠ 1 || (minor ≠ 1 && minor ≠ 2) then refuse
      skip
      directives true handles count
    | some (.handle name meaning) =>
      if (handles.lookup name).isSome then refuse
      skip
      directives versioned ((name, meaning) :: handles) count
    | _ => return (versioned, handles)

/-- Passes over lines of dots. -/
def skipEnds : Nat → Composing Unit
  | 0 => pure ()
  | count + 1 => do
    if ← accept .documentEnd then skipEnds count

/-- Reads a text with one document at most. -/
def document : Composing (Option Node) := do
  let count := (← get).tokens.length + 1
  if (← peek?).isNone then return none
  let (versioned, handles) ← directives false [] count
  modify fun c => { c with handles := handles ++ commonHandles }
  let marked ← accept .documentStart
  if !marked && (versioned || !handles.isEmpty) then refuse
  let isEmpty :=
    match ← peek? with
    | none => true
    | some (.version ..) => true
    | some (.handle ..) => true
    | some t => t = .documentStart || t = .documentEnd
  let root ←
    if marked && isEmpty then pure (.scalar Scalar.empty) else node true false (3 * count + 3)
  skipEnds count
  if (← peek?).isNone then return some root else refuse

end Composing

def document? (text : String) : Option Document := do
  let (root, c) ← Composing.document.run ⟨← tokens? text, Anchors.empty, []⟩
  return ⟨root, c.anchors⟩

end Yaml

end StagedSearch
