/-
# The layout of a YAML text

The tokens of a text come from its signs and from its indentation. A block opens where a
line is indented by more than the block around it, and ends in front of a line that is
indented by less.

A key may be announced by a question mark, but mostly only the colon behind it shows that it
was one. So a token that may turn out to begin a key is remembered, one on every level of
brackets, until the colon comes; a key like that lies on one line and has 1024 bytes at most.
At the indentation of a mapping nothing but a key may begin.
-/

import StagedSearch.Options.Yaml.Token

namespace StagedSearch

namespace Yaml

/-- A place where a key may have begun. -/
structure PendingKey where
  /-- how many tokens stand in front of it -/
  position : Nat
  /-- whether nothing but a key may stand there -/
  required : Bool
  offset : Nat
  line : Nat
  column : Nat
deriving DecidableEq, Inhabited

/-- Whether it is too late for the colon of a key. -/
def PendingKey.isStale (k : PendingKey) (c : Cursor) : Bool :=
  decide (k.line < c.line) || decide (k.offset + 1024 < c.offset)

/-- What is known behind some tokens of a text. -/
structure Layout where
  cursor : Cursor
  /-- the tokens, the latest first -/
  tokens : List Token
  /-- the columns of the open blocks, the innermost first -/
  columns : List Nat
  /-- where a key may have begun, on this level of brackets -/
  pending : Option PendingKey
  /-- where keys may have begun on the levels around this one -/
  outer : List (Option PendingKey)
  /-- whether a key may begin here -/
  keyAllowed : Bool
deriving DecidableEq, Inhabited

namespace Layout

def start (text : List Char) : Layout := ⟨Cursor.start text, [], [], none, [], true⟩

/-- Whether the place is inside of brackets, where indentation has no meaning. -/
def inFlow (l : Layout) : Bool := !l.outer.isEmpty

/-- The column of the innermost block; without any block all columns are indented. -/
def indent (l : Layout) : Int :=
  match l.columns with
  | [] => -1
  | column :: _ => column

def push (t : Token) (l : Layout) : Layout := { l with tokens := t :: l.tokens }

/-- Adds a token behind the first tokens, `position` many. -/
def insert (position : Nat) (t : Token) (l : Layout) : Layout :=
  let later := l.tokens.length - position
  { l with tokens := l.tokens.take later ++ t :: l.tokens.drop later }

/-- How many columns of blocks lie behind a column, and the other columns. -/
def splitColumns (column : Int) : List Nat → Nat × List Nat
  | [] => (0, [])
  | c :: columns =>
    if column < c then
      let (count, rest) := splitColumns column columns
      (count + 1, rest)
    else (0, c :: columns)

/-- Ends the blocks that are indented by more than a column. -/
def closeBlocks (column : Int) (l : Layout) : Layout :=
  if l.inFlow then l
  else
    let (count, columns) := splitColumns column l.columns
    { l with columns, tokens := List.replicate count .blockEnd ++ l.tokens }

/-- Opens a block behind the first tokens, `position` many, if its column is indented. -/
def openBlock (column position : Nat) (t : Token) (l : Layout) : Layout :=
  if !l.inFlow && decide (l.indent < column) then
    { l.insert position t with columns := column :: l.columns }
  else l

/-- Opens a block here, if it is indented. Outside of brackets it has to be at a place where
a key may begin. -/
def openBlockHere (t : Token) (l : Layout) : Option Layout :=
  if l.inFlow then some l
  else if l.keyAllowed then some (l.openBlock l.cursor.column l.tokens.length t)
  else none

/-- Forgets a place where a key may have begun, unless it is required. -/
def forget : Option PendingKey → Option (Option PendingKey)
  | some k => if k.required then none else some none
  | none => some none

/-- Forgets a place where a key may have begun, if it is too late for its colon. -/
def forgetStale (c : Cursor) : Option PendingKey → Option (Option PendingKey)
  | some k => if k.isStale c then forget (some k) else some (some k)
  | none => some none

/-- Forgets all places where it is too late for a colon. -/
def dropStale (l : Layout) : Option Layout := do
  let pending ← forgetStale l.cursor l.pending
  let outer ← l.outer.mapM (forgetStale l.cursor)
  return { l with pending, outer }

/-- Forgets the place on this level. -/
def dropPending (l : Layout) : Option Layout :=
  (forget l.pending).map fun pending => { l with pending }

/-- Remembers this place, if a key may begin here. -/
def markPending (l : Layout) : Option Layout :=
  if l.keyAllowed then
    let c := l.cursor
    let required := !l.inFlow && l.indent = c.column
    l.dropPending.map fun l =>
      { l with pending := some ⟨l.tokens.length, required, c.offset, c.line, c.column⟩ }
  else some l

def allowKey (keyAllowed : Bool) (l : Layout) : Layout := { l with keyAllowed }

def scan {α : Type} (reader : Scanning α) (l : Layout) : Option (α × Layout) :=
  (reader.run l.cursor).map fun (a, cursor) => (a, { l with cursor })

/-- Passes over a sign, and adds a token for it. -/
def sign (length : Nat) (t : Token) (l : Layout) : Layout :=
  { l with cursor := l.cursor.advance length, tokens := t :: l.tokens }

def read (reader : Scanning Token) (l : Layout) : Option Layout :=
  (l.scan reader).map fun (t, l) => l.push t

/-! ## Blanks -/

/-- Passes over blanks, comments and ends of lines. Where a key may begin tabs are no blanks,
except inside of brackets. A line may begin with a mark of the byte order, which takes up its
first column. Behind the end of a line a key may begin. The first argument counts down the
characters. -/
def skipSpaceFor : Nat → Layout → Layout
  | 0, l => l
  | count + 1, l =>
    match l.cursor.rest with
    | [] => l
    | c :: rest =>
      let isMark := l.cursor.column = 0 && c = '\ufeff'
      let isSpace := c = ' ' || (c = '\t' && (l.inFlow || !l.keyAllowed))
      if isMark || isSpace then skipSpaceFor count { l with cursor := l.cursor.next }
      else if c = '#' then
        let length := (rest.takeWhile (!isBreak ·)).length + 1
        skipSpaceFor count { l with cursor := l.cursor.advance length }
      else if isBreak c then
        skipSpaceFor count
          { l with cursor := l.cursor.next, keyAllowed := l.keyAllowed || !l.inFlow }
      else l

def skipSpace (l : Layout) : Layout := skipSpaceFor l.cursor.rest.length l

/-! ## Tokens -/

def openFlow (t : Token) (l : Layout) : Option Layout := do
  let l ← l.markPending
  return ({ l with pending := none, outer := l.pending :: l.outer }.allowKey true).sign 1 t

def closeFlow (t : Token) (l : Layout) : Option Layout := do
  let l ← l.dropPending
  let l :=
    match l.outer with
    | [] => l
    | pending :: outer => { l with pending, outer }
  return (l.allowKey false).sign 1 t

def comma (l : Layout) : Option Layout :=
  l.dropPending.map fun l => (l.allowKey true).sign 1 .comma

def dash (l : Layout) : Option Layout := do
  let l ← l.openBlockHere .blockSequence
  let l ← l.dropPending
  return (l.allowKey true).sign 1 .dash

def questionMark (l : Layout) : Option Layout := do
  let l ← l.openBlockHere .blockMapping
  let l ← l.dropPending
  return (l.allowKey !l.inFlow).sign 1 .key

/-- A colon behind a key. If no sign announced the key, its token goes to the place where the
key has begun, and may open a block there. -/
def colon (l : Layout) : Option Layout :=
  match l.pending with
  | some k =>
    let l := (l.insert k.position .key).openBlock k.column k.position .blockMapping
    some (({ l with pending := none }.allowKey false).sign 1 .value)
  | none => do
    let l ← l.openBlockHere .blockMapping
    return (l.allowKey !l.inFlow).sign 1 .value

/-- A token that may begin a key. -/
def word (reader : Scanning Token) (l : Layout) : Option Layout := do
  let l ← l.markPending
  (l.allowKey false).read reader

/-- A plain scalar. Behind the end of a line a key may begin. -/
def plain (l : Layout) : Option Layout := do
  let l ← l.markPending
  let ((text, broken), l) ← l.scan (plainScalar l.inFlow (l.indent + 1).toNat)
  return (l.allowKey broken).push (.scalar .plain text)

/-- A block of lines, which cannot be a key without a question mark. -/
def block (style : ScalarStyle) (l : Layout) : Option Layout := do
  let l ← l.dropPending
  (l.allowKey true).read do
    return .scalar style (← blockScalar (decide (style = .folded)) l.indent)

def outside (reader : Scanning Token) (l : Layout) : Option Layout := do
  let l ← (l.closeBlocks (-1)).dropPending
  (l.allowKey false).read reader

def named (token : String → Token) : Scanning Token := do
  Scanning.skip 1
  return token (← Token.readName)

/-- Reads the token at a place that is neither blank nor the end of the text. -/
def token (l : Layout) : Option Layout :=
  let quoted (quote : Char) : Scanning Token := return .scalar .quoted (← quotedScalar quote)
  let marker (t : Token) : Scanning Token := do
    Scanning.skip 3
    return t
  let c := l.cursor
  if c.column = 0 && c.rest.head? = some '%' then l.outside Token.readDirective
  else if c.atMarker "---" then l.outside (marker .documentStart)
  else if c.atMarker "..." then l.outside (marker .documentEnd)
  else
    match c.rest with
    | [] => none
    | char :: rest =>
      let isAlone := l.inFlow || blankAhead rest
      if char = '[' then l.openFlow .flowSequence
      else if char = '\x7b' then l.openFlow .flowMapping
      else if char = ']' then l.closeFlow .flowSequenceEnd
      else if char = '\x7d' then l.closeFlow .flowMappingEnd
      else if char = ',' then l.comma
      else if char = '-' && blankAhead rest then l.dash
      else if char = '?' && isAlone then l.questionMark
      else if char = ':' && isAlone then l.colon
      else if char = '*' then l.word (named .reference)
      else if char = '&' then l.word (named .anchor)
      else if char = '!' then l.word (Token.readTag l.inFlow)
      else if char = '|' && !l.inFlow then l.block .literal
      else if char = '>' && !l.inFlow then l.block .folded
      else if char = '\x27' then l.word (quoted '\x27')
      else if char = '"' then l.word (quoted '"')
      else if plainAhead l.inFlow (char :: rest) then l.plain
      else none

/-- Reads tokens up to the end of the text. The first argument counts them down. -/
def tokensFor : Nat → Layout → Option (List Token)
  | 0, _ => none
  | count + 1, l => do
    let l ← l.skipSpace.dropStale
    let l := l.closeBlocks l.cursor.column
    if l.cursor.rest.isEmpty then
      let l ← (l.closeBlocks (-1)).dropPending
      return l.tokens.reverse
    else tokensFor count (← l.token)

end Layout

def tokens? (text : String) : Option (List Token) :=
  let chars := text.toList
  if chars.all isAllowed then Layout.tokensFor (chars.length + 1) (Layout.start chars) else none

end Yaml

end StagedSearch
