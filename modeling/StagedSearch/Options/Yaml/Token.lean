/-
# Tokens of YAML

The words and signs that a text is made of, and the readers of those that are names: anchors,
tags, and the directives in front of a document. A tag is a handle and the rest of its name;
directives say what handles stand for.
-/

import StagedSearch.Options.Yaml.Scalar

namespace StagedSearch

namespace Yaml

/-- A token. Blocks have no signs of their own: their tokens come from the indentation. -/
inductive Token where
  | version (major minor : Nat)
  | handle (name meaning : String)
  | documentStart
  | documentEnd
  | blockSequence
  | blockMapping
  | blockEnd
  | flowSequence
  | flowSequenceEnd
  | flowMapping
  | flowMappingEnd
  | dash
  | comma
  | key
  | value
  | anchor (name : String)
  | reference (name : String)
  /-- a tag; one without a handle is written out -/
  | tag (handle rest : String)
  | scalar (style : ScalarStyle) (text : String)
deriving DecidableEq, Inhabited

namespace Token

/-- Characters that may follow the name of an anchor, besides blanks. -/
def isAfterName (c : Char) : Bool := "?:,]\x7d%@`".contains c

def readName : Scanning String := do
  let name ← Scanning.takeWhile isNameChar
  let rest ← Scanning.ahead
  if name.isEmpty then Scanning.refuse
  if !blankAhead rest && !rest.head?.any isAfterName then Scanning.refuse
  return String.ofList name

/-! ## Tags -/

/-- Characters of tags. A tag that is written out may also hold commas and brackets. -/
def isTagChar (writtenOut : Bool) (c : Char) : Bool :=
  isNameChar c || ";/?:@&=+$.%!~*\x27()".contains c || (writtenOut && ",[]".contains c)

def readByte : Scanning Nat := do
  match ← Scanning.ahead with
  | '%' :: a :: b :: _ =>
    match Text.digits? 16 [a, b] with
    | some byte =>
      Scanning.skip 3
      return byte
    | none => Scanning.refuse
  | _ => Scanning.refuse

/-- Reads the bytes of a character behind the first one, which has left some `code`. -/
def readLaterBytes : Nat → Nat → Scanning Nat
  | 0, code => return code
  | count + 1, code => do
    let byte ← readByte
    if byte / 64 = 2 then readLaterBytes count (64 * code + byte % 64) else Scanning.refuse

def readEncoded : Scanning Char := do
  let byte ← readByte
  let code ←
    if byte < 128 then pure byte
    else if byte / 32 = 6 then readLaterBytes 1 (byte % 32)
    else if byte / 16 = 14 then readLaterBytes 2 (byte % 16)
    else if byte / 8 = 30 then readLaterBytes 3 (byte % 8)
    else Scanning.refuse
  return Char.ofNat code

/-- Reads the characters of a tag. The last argument counts them down. -/
def readTagCharsFor (writtenOut : Bool) : Nat → Scanning (List Char)
  | 0 => return []
  | count + 1 => do
    match ← Scanning.ahead with
    | [] => return []
    | c :: _ =>
      if c = '%' then
        let char ← readEncoded
        return char :: (← readTagCharsFor writtenOut count)
      else if isTagChar writtenOut c then
        Scanning.skip 1
        return c :: (← readTagCharsFor writtenOut count)
      else return []

def readTagChars (writtenOut : Bool) : Scanning (List Char) := do
  readTagCharsFor writtenOut (← Scanning.ahead).length

def readTagText (writtenOut : Bool) : Scanning String := do
  let chars ← readTagChars writtenOut
  if chars.isEmpty then Scanning.refuse else return String.ofList chars

/-- Reads a tag: a name in angle brackets, a handle between exclamation marks and a name, or
one exclamation mark and a name, which may be empty. -/
def readTag (flow : Bool) : Scanning Token := do
  Scanning.skip 1
  let tag ← do
    if (← Scanning.ahead).head? = some '<' then
      Scanning.skip 1
      let name ← readTagText true
      if (← Scanning.ahead).head? ≠ some '>' then Scanning.refuse
      Scanning.skip 1
      pure (.tag "" name)
    else
      let name ← Scanning.takeWhile isNameChar
      if (← Scanning.ahead).head? = some '!' then
        Scanning.skip 1
        pure (.tag (String.ofList ('!' :: name ++ ['!'])) (← readTagText false))
      else
        match name ++ (← readTagChars false) with
        | [] => pure (.tag "" "!")
        | chars => pure (.tag "!" (String.ofList chars))
  let rest ← Scanning.ahead
  if blankAhead rest || (flow && rest.head? = some ',') then return tag else Scanning.refuse

/-! ## Directives -/

/-- Reads a number of a version, which has nine digits at most. -/
def readVersionNumber : Scanning Nat := do
  let digits ← Scanning.takeWhile Char.isDigit
  if digits.isEmpty || decide (9 < digits.length) then Scanning.refuse
  match Text.digits? 10 digits with
  | some n => return n
  | none => Scanning.refuse

/-- Reads the handle that a directive gives a meaning to. -/
def readHandle : Scanning String := do
  if (← Scanning.ahead).head? ≠ some '!' then Scanning.refuse
  Scanning.skip 1
  let name ← Scanning.takeWhile isNameChar
  if (← Scanning.ahead).head? = some '!' then
    Scanning.skip 1
    return String.ofList ('!' :: name ++ ['!'])
  else if name.isEmpty then return "!"
  else Scanning.refuse

def readDirective : Scanning Token := do
  Scanning.skip 1
  let name ← Scanning.takeWhile isNameChar
  if !blankAhead (← Scanning.ahead) then Scanning.refuse
  Scanning.skipWhile isBlank
  let directive ←
    match String.ofList name with
    | "YAML" => do
      let major ← readVersionNumber
      if (← Scanning.ahead).head? ≠ some '.' then Scanning.refuse
      Scanning.skip 1
      pure (.version major (← readVersionNumber))
    | "TAG" => do
      let handle ← readHandle
      if !(← Scanning.ahead).head?.any isBlank then Scanning.refuse
      Scanning.skipWhile isBlank
      let meaning ← readTagText true
      if !blankAhead (← Scanning.ahead) then Scanning.refuse
      pure (.handle handle meaning)
    | _ => Scanning.refuse
  Scanning.finishLine
  return directive

end Token

end Yaml

end StagedSearch
