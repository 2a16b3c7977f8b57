/-
# A place in a YAML text

Indentation carries meaning, so a reader knows at which line and column it stands. It also
counts bytes, because a key that no mark announces is only so long. A line ends with a line
feed, a carriage return, both, or one of three other separators of lines.
-/

import StagedSearch.Options.Reading

namespace StagedSearch

namespace Yaml

/-- Whether a character may stand in a text at all. Of the control characters only tabs and
ends of lines may. -/
def isAllowed (c : Char) : Bool :=
  let n := c.toNat
  c = '\t' || c = '\n' || c = '\r' || (decide (32 ≤ n) && decide (n < 127)) || decide (n = 133) ||
    (decide (160 ≤ n) && decide (n ≠ 65534) && decide (n ≠ 65535))

/-- Separators of lines that a scalar keeps as they are. -/
def isSeparator (c : Char) : Bool := c = '\u2028' || c = '\u2029'

def isBreak (c : Char) : Bool := c = '\n' || c = '\r' || c = '\u0085' || isSeparator c

def isBlank (c : Char) : Bool := c = ' ' || c = '\t'

/-- Characters of the names of anchors, of tag handles and of directives. -/
def isNameChar (c : Char) : Bool := c.isAlphanum || c = '_' || c = '-'

/-- Whether a text is at its end, or goes on with the end of a line. -/
def breakAhead (text : List Char) : Bool :=
  match text with
  | [] => true
  | c :: _ => isBreak c

/-- Whether a text is at its end, or goes on with a blank or the end of a line. -/
def blankAhead (text : List Char) : Bool :=
  match text with
  | [] => true
  | c :: _ => isBlank c || isBreak c

/-- The characters ahead, and the place of the first of them. -/
structure Cursor where
  rest : List Char
  /-- how many bytes stand in front -/
  offset : Nat
  line : Nat
  column : Nat
deriving DecidableEq, Inhabited

namespace Cursor

def start (text : List Char) : Cursor := ⟨text, 0, 0, 0⟩

/-- Passes over one character, or over both characters of the end of a line. -/
def next (c : Cursor) : Cursor :=
  match c.rest with
  | [] => c
  | '\r' :: '\n' :: rest => ⟨rest, c.offset + 2, c.line + 1, 0⟩
  | char :: rest =>
    let offset := c.offset + char.utf8Size
    if isBreak char then ⟨rest, offset, c.line + 1, 0⟩ else ⟨rest, offset, c.line, c.column + 1⟩

def advance : Nat → Cursor → Cursor
  | 0, c => c
  | count + 1, c => advance count c.next

/-- Whether a line begins here with a mark that stands alone. -/
def atMarker (marker : String) (c : Cursor) : Bool :=
  c.column = 0 && marker.toList.isPrefixOf c.rest && blankAhead (c.rest.drop marker.length)

/-- Whether a line begins here that ends a document. -/
def atDocumentMarker (c : Cursor) : Bool := c.atMarker "---" || c.atMarker "..."

end Cursor

/-- A reader that knows its place. -/
abbrev Scanning := StateT Cursor Option

namespace Scanning

def refuse {α : Type} : Scanning α := fun _ => none

def cursor : Scanning Cursor := get

def ahead : Scanning (List Char) := return (← get).rest

def skip (count : Nat) : Scanning Unit := modify (·.advance count)

/-- Takes characters of a class that holds no ends of lines. -/
def takeWhile (isOf : Char → Bool) : Scanning (List Char) := do
  let chars := (← ahead).takeWhile isOf
  skip chars.length
  return chars

def skipWhile (isOf : Char → Bool) : Scanning Unit := discard (takeWhile isOf)

/-- Takes the end of a line, if it comes next. Most ends of lines are taken for a line
feed. -/
def takeBreak : Scanning (List Char) := do
  match ← ahead with
  | [] => return []
  | c :: _ =>
    if isBreak c then
      skip 1
      return [if isSeparator c then c else '\n']
    else return []

/-- Passes over the blanks and the comment at the end of a line, and the end itself. -/
def finishLine : Scanning Unit := do
  skipWhile isBlank
  if (← ahead).head? = some '#' then skipWhile (!isBreak ·)
  if breakAhead (← ahead) then discard takeBreak else refuse

end Scanning

end Yaml

end StagedSearch
