/-
# Scalars of YAML

A scalar is plain, in quotes, or a block of lines. Its text may run over several lines, which
are joined: one end of a line becomes a space, and of several ends all but the first one stay.
Literal blocks keep all their ends of lines.
-/

import StagedSearch.Options.Yaml.Cursor

namespace StagedSearch

namespace Yaml

inductive ScalarStyle where
  | plain
  | quoted
  | literal
  | folded
deriving DecidableEq, Inhabited

/-! ## Blanks inside of scalars -/

/-- Blanks and ends of lines between two words: the blanks in front of the first end of a
line, and the ends of lines. Blanks at the beginning of later lines do not count. -/
structure Gap where
  blanks : List Char
  breaks : List Char
deriving DecidableEq, Inhabited

namespace Gap

/-- The text that a gap stands for. -/
def joined (g : Gap) : List Char :=
  match g.breaks with
  | [] => g.blanks
  | ['\n'] => [' ']
  | '\n' :: later => later
  | breaks => breaks

/-- Reads a gap. `broken` says whether an end of a line came before; then no tab may stand
in front of the column `depth`. The last argument counts down the characters. -/
def readFor (depth : Nat) : Bool → Nat → Scanning Gap
  | _, 0 => return ⟨[], []⟩
  | broken, count + 1 => do
    let c ← Scanning.cursor
    match c.rest with
    | [] => return ⟨[], []⟩
    | char :: _ =>
      if isBreak char then
        let lineEnd ← Scanning.takeBreak
        let later ← readFor depth true count
        return ⟨[], lineEnd ++ later.breaks⟩
      else if isBlank char then
        if broken && char = '\t' && decide (c.column < depth) then Scanning.refuse
        Scanning.skip 1
        let later ← readFor depth broken count
        return if broken then later else { later with blanks := char :: later.blanks }
      else return ⟨[], []⟩

def read (depth : Nat) (broken : Bool) : Scanning Gap := do
  readFor depth broken (← Scanning.ahead).length

end Gap

/-! ## Scalars in quotes -/

/-- The character that a single letter behind a backslash stands for. -/
def escaped? : Char → Option Char
  | '0' => some '\x00'
  | 'a' => some '\x07'
  | 'b' => some '\x08'
  | 't' => some '\t'
  | '\t' => some '\t'
  | 'n' => some '\n'
  | 'v' => some '\x0b'
  | 'f' => some '\x0c'
  | 'r' => some '\r'
  | 'e' => some '\x1b'
  | ' ' => some ' '
  | '"' => some '"'
  | '/' => some '/'
  | '\\' => some '\\'
  | 'N' => some '\u0085'
  | '_' => some '\u00a0'
  | 'L' => some '\u2028'
  | 'P' => some '\u2029'
  | _ => none

/-- How many digits the code of a character has behind a letter. -/
def codeLength? : Char → Option Nat
  | 'x' => some 2
  | 'u' => some 4
  | 'U' => some 8
  | _ => none

def escape : Scanning Char := do
  match ← Scanning.ahead with
  | [] => Scanning.refuse
  | c :: rest =>
    match escaped? c, codeLength? c with
    | some char, _ =>
      Scanning.skip 1
      return char
    | none, some length =>
      let digits := rest.take length
      match Text.digits? 16 digits with
      | some code =>
        if digits.length = length ∧ code.isValidChar then
          Scanning.skip (length + 1)
          return Char.ofNat code
        else Scanning.refuse
      | none => Scanning.refuse
    | none, none => Scanning.refuse

/-- Reads characters up to a blank, an end of a line or the closing quote. A quote is written
twice inside of single quotes, and a backslash escapes inside of double quotes. Gives also
whether the end of a line was escaped. -/
def quotedWord (quote : Char) : Nat → Scanning (List Char × Bool)
  | 0 => return ([], false)
  | count + 1 => do
    match ← Scanning.ahead with
    | [] => return ([], false)
    | c :: rest =>
      if isBlank c || isBreak c then return ([], false)
      else if c = '\x27' && quote = '\x27' && rest.head? = some '\x27' then
        Scanning.skip 2
        let (chars, broken) ← quotedWord quote count
        return (c :: chars, broken)
      else if c = quote then return ([], false)
      else if c = '\\' && quote = '"' then
        Scanning.skip 1
        if rest.head?.any isBreak then
          Scanning.skip 1
          return ([], true)
        let char ← escape
        let (chars, broken) ← quotedWord quote count
        return (char :: chars, broken)
      else
        Scanning.skip 1
        let (chars, broken) ← quotedWord quote count
        return (c :: chars, broken)

/-- Reads the rest of a scalar in quotes, behind the opening quote. A line inside of it may
not look like the end of the document. -/
def quotedRest (quote : Char) : Nat → Scanning (List Char)
  | 0 => Scanning.refuse
  | count + 1 => do
    let c ← Scanning.cursor
    if c.rest.isEmpty || c.atDocumentMarker then Scanning.refuse
    let (word, broken) ← quotedWord quote c.rest.length
    if (← Scanning.ahead).head? = some quote then
      Scanning.skip 1
      return word
    let gap ← Gap.read 0 broken
    let later ← quotedRest quote count
    return word ++ (if broken then gap.breaks else gap.joined) ++ later

def quotedScalar (quote : Char) : Scanning String := do
  Scanning.skip 1
  return String.ofList (← quotedRest quote ((← Scanning.ahead).length + 1))

/-! ## Plain scalars -/

def isFlowIndicator (c : Char) : Bool := ",[]\x7b\x7d".contains c

/-- Whether a plain scalar may begin here. -/
def plainAhead (flow : Bool) : List Char → Bool
  | [] => false
  | '-' :: rest => !blankAhead rest
  | '?' :: rest => !flow && !blankAhead rest
  | ':' :: rest => !flow && !blankAhead rest
  | c :: _ => !isBlank c && !isBreak c && !",[]\x7b\x7d#&*!|>\x27\"%@`".contains c

/-- Whether a plain scalar ends in front of some characters: at a blank, at the end of a line,
at a colon with a blank behind it, and inside of brackets at a bracket or a comma. -/
def plainEnds (flow : Bool) : List Char → Bool
  | [] => true
  | c :: rest =>
    isBlank c || isBreak c || (c = ':' && blankAhead rest) || (flow && isFlowIndicator c)

/-- Characters that may not follow a colon inside of brackets. -/
def isAfterColon (c : Char) : Bool := isFlowIndicator c || c = '?'

/-- Reads the characters of a plain scalar up to a blank or its end. Inside of brackets no
indicator may follow a colon. -/
def plainWord (flow : Bool) : Nat → Scanning (List Char)
  | 0 => return []
  | count + 1 => do
    match ← Scanning.ahead with
    | [] => return []
    | c :: rest =>
      if flow && c = ':' && rest.head?.any isAfterColon then Scanning.refuse
      if plainEnds flow (c :: rest) then return []
      Scanning.skip 1
      return c :: (← plainWord flow count)

/-- Reads what follows a word of a plain scalar: gaps, and more words. A comment and the end
of the document end it, and outside of brackets a line that is not indented up to `depth`.
Gives also whether the last gap had an end of a line. -/
def plainLater (flow : Bool) (depth : Nat) : Nat → Scanning (List Char × Bool)
  | 0 => return ([], false)
  | count + 1 => do
    let gap ← Gap.read depth false
    let broken := gap.breaks ≠ []
    let c ← Scanning.cursor
    if (!flow && decide (c.column < depth)) || c.atDocumentMarker || c.rest.head? = some '#' then
      return ([], broken)
    let word ← plainWord flow c.rest.length
    if word.isEmpty then return ([], broken)
    let (later, broken) ← plainLater flow depth count
    return (gap.joined ++ word ++ later, broken)

/-- Reads a plain scalar. Gives also whether it went up to the end of a line. -/
def plainScalar (flow : Bool) (depth : Nat) : Scanning (String × Bool) := do
  let count := (← Scanning.ahead).length
  let word ← plainWord flow count
  let (later, broken) ← plainLater flow depth (count + 1)
  return (String.ofList (word ++ later), broken)

/-! ## Blocks of lines -/

/-- What becomes of the ends of lines at the end of a block. -/
inductive Chomping where
  /-- all are dropped -/
  | strip
  /-- the first one stays -/
  | clip
  /-- all stay -/
  | keep
deriving DecidableEq, Inhabited

/-- Reads the sign that chooses the chomping, if there is one. -/
def chomping? : Scanning (Option Chomping) := do
  match ← Scanning.ahead with
  | '+' :: _ =>
    Scanning.skip 1
    return some .keep
  | '-' :: _ =>
    Scanning.skip 1
    return some .strip
  | _ => return none

/-- Reads the digit that gives the depth of a block, if there is one. -/
def blockDepth? : Scanning (Option Nat) := do
  match ← Scanning.ahead with
  | c :: _ =>
    if c = '0' then Scanning.refuse
    else if c.isDigit then
      Scanning.skip 1
      return some (c.toNat - '0'.toNat)
    else return none
  | [] => return none

/-- Reads the sign and the digit of a block, in any order. -/
def blockIndicators : Scanning (Option Chomping × Option Nat) := do
  match ← chomping? with
  | some sign => return (some sign, ← blockDepth?)
  | none =>
    match ← blockDepth? with
    | some depth => return (← chomping?, some depth)
    | none => return (none, none)

/-- Reads empty lines and the indentation of the next one. Without a known depth all spaces
are indentation, which no tab may follow. Gives also the greatest column. The last argument
counts down the characters. -/
def emptyLines (depth : Option Nat) : Nat → Scanning (List Char × Nat)
  | 0 => return ([], 0)
  | count + 1 => do
    let c ← Scanning.cursor
    let isIndentation := (depth.map fun d => decide (c.column < d)).getD true
    match c.rest with
    | [] => return ([], c.column)
    | char :: _ =>
      if isIndentation && char = ' ' then
        Scanning.skip 1
        emptyLines depth count
      else if isIndentation && char = '\t' then Scanning.refuse
      else if isBreak char then
        let lineEnd ← Scanning.takeBreak
        let (later, column) ← emptyLines depth count
        return (lineEnd ++ later, Nat.max c.column column)
      else return ([], c.column)

/-- The lines of a block as far as they are read: their text, the end of the last line,
whether that line begins with a blank, and the empty lines behind it. -/
structure BlockText where
  text : List Char
  lineEnd : List Char
  indented : Bool
  empty : List Char
deriving DecidableEq, Inhabited

namespace BlockText

/-- The end of a line and the empty lines behind it, in front of a line that begins with a
blank or not. A folded block joins lines unless one of them begins with a blank. -/
def joint (b : BlockText) (folded indented : Bool) : List Char :=
  if folded && b.lineEnd = ['\n'] && !b.indented && !indented then
    if b.empty.isEmpty then [' '] else b.empty
  else b.lineEnd ++ b.empty

def chomped (b : BlockText) : Option Chomping → List Char
  | some .strip => b.text
  | some .keep => b.text ++ b.lineEnd ++ b.empty
  | _ => b.text ++ b.lineEnd

/-- Reads the lines of a block that stand at its depth. -/
def readFor (folded : Bool) (depth : Nat) (b : BlockText) : Nat → Scanning BlockText
  | 0 => return b
  | count + 1 => do
    let c ← Scanning.cursor
    if c.rest.isEmpty || c.column ≠ depth then return b
    let indented := c.rest.head?.any isBlank
    let line ← Scanning.takeWhile (!isBreak ·)
    let lineEnd ← Scanning.takeBreak
    let (empty, _) ← emptyLines (some depth) c.rest.length
    readFor folded depth
      ⟨b.text ++ b.joint folded indented ++ line, lineEnd, indented, empty⟩ count

end BlockText

/-- Reads a block of lines, behind the mark that opens it. It is indented by more than the
block around it; its first line with a text gives the depth if no digit does. -/
def blockScalar (folded : Bool) (indent : Int) : Scanning String := do
  Scanning.skip 1
  let (chomping, more) ← blockIndicators
  Scanning.finishLine
  let count := (← Scanning.ahead).length + 1
  let depth := more.map fun n => indent.toNat + n
  let (empty, column) ← emptyLines depth count
  let depth := depth.getD (Nat.max (Nat.max column (indent + 1).toNat) 1)
  let b ← BlockText.readFor folded depth ⟨[], [], false, empty⟩ count
  return String.ofList (b.chomped chomping)

end Yaml

end StagedSearch
