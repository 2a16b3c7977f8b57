/-
# The written form of patterns

Most characters of a pattern stand for themselves. Parts in round brackets are groups, sets
of characters stand in square brackets, `?`, `*` and `+` repeat what is in front of them, and
a bar separates alternatives. A backslash takes the meaning from a sign, and gives one to
some letters. A group may begin with a name, or with flags; one of the flags says that from
there on spaces stand for nothing, and comments may be written, each from a `#` to the end of
its line.

In a set, a dash between two characters gives a range, and `&&`, `--` and `~~` combine sets.
A closing bracket or dashes in front of a set stand for themselves.

The repetition of a part so and so many times, and all else that needs a closing brace, is
not read: values of fields hold no such brace.
-/

import StagedSearch.Pattern.Basic
import StagedSearch.Text.Alphanumeric
import StagedSearch.Text.Digits
import StagedSearch.Text.Space

namespace StagedSearch

namespace Pattern

structure Place where
  rest : List Char
  /-- whether spaces and comments stand for nothing -/
  spaced : Bool
  /-- the names of the groups in front -/
  names : List (List Char)
deriving DecidableEq, Inhabited

abbrev Reader := StateT Place Option

namespace Reader

def refuse {α : Type} : Reader α := fun _ => none

def ahead : Reader (List Char) := return (← get).rest

def goTo (rest : List Char) : Reader Unit := modify fun p => { p with rest }

def skip (count : Nat) : Reader Unit := do goTo ((← ahead).drop count)

/-- Passes over some characters, if they come next. -/
def accept (start : String) : Reader Bool := do
  let rest ← ahead
  if start.toList.isPrefixOf rest then
    goTo (rest.drop start.length)
    return true
  else return false

/-- Passes over the first of some texts that comes next. -/
def acceptAny : List String → Reader Bool
  | [] => return false
  | start :: starts => do
    if ← accept start then return true
    acceptAny starts

/-- Passes over some characters, which have to come next. -/
def expect (start : String) : Reader Unit := do
  if !(← accept start) then refuse

/-! ## Spaces -/

/-- The characters behind spaces and comments. The first argument says whether the text
begins inside of a comment. -/
def dropSpace : Bool → List Char → List Char
  | _, [] => []
  | true, c :: rest => dropSpace (c != '\n') rest
  | false, c :: rest =>
    if Text.isSpace c then dropSpace false rest
    else if c = '#' then dropSpace true rest
    else c :: rest

/-- Passes over spaces and comments, where they stand for nothing. -/
def skipSpace : Reader Unit := do
  if (← get).spaced then goTo (dropSpace false (← ahead))

/-- What a dash in a set is followed by. Where spaces stand for nothing they are passed over,
and so is one `#`, but not the comment behind it. -/
def behindDash? : Reader (Option Char) := do
  let rest := (← ahead).drop 1
  if (← get).spaced then
    let rest := rest.dropWhile Text.isSpace
    let rest := if rest.head? = some '#' then (rest.drop 1).dropWhile Text.isSpace else rest
    return rest.head?
  else return rest.head?

/-! ## Characters -/

def hexDigits : Nat → Reader (List Char)
  | 0 => return []
  | count + 1 => do
    skipSpace
    match ← ahead with
    | [] => refuse
    | c :: rest =>
      goTo rest
      return c :: (← hexDigits count)

def codePoint (digits : Nat) : Reader Pattern := do
  match Text.digits? 16 (← hexDigits digits) with
  | some n => if n.isValidChar then return .literal ⟨Char.ofNat n, digits = 2⟩ else refuse
  | none => refuse

/-- Whether a backslash takes the meaning from a character. -/
def isSign (c : Char) : Bool :=
  decide (c.toNat < 128) && !c.isAlphanum && c != '<' && c != '>'

/-- The character that a letter behind a backslash stands for. -/
def control? : Char → Option Char
  | 'a' => some '\x07'
  | 't' => some '\t'
  | 'n' => some '\n'
  | 'v' => some '\x0b'
  | 'f' => some '\x0c'
  | 'r' => some '\r'
  | _ => none

def escape : Reader Pattern := do
  match ← ahead with
  | [] => refuse
  | c :: rest =>
    goTo rest
    if c = 'x' then codePoint 2
    else if c = 'u' then codePoint 4
    else if c = 'U' then codePoint 8
    else if "dsw".contains c then return .shorthand false
    else if "DSW".contains c then return .shorthand true
    else if isSign c then return .literal ⟨c, false⟩
    else if c = 'A' || c = 'z' then return .anchor
    else if "bB<>".contains c then return .boundary
    else
      match control? c with
      | some char => return .literal ⟨char, false⟩
      | none => refuse

def character : Reader Pattern := do
  match ← ahead with
  | [] => refuse
  | c :: rest =>
    goTo rest
    if c = '\\' then escape
    else if c = '.' then return .anyChar
    else if c = '^' || c = '$' then return .anchor
    else return .literal ⟨c, false⟩

/-! ## Sets -/

def alphabets : List String :=
  ["alnum", "alpha", "ascii", "blank", "cntrl", "digit", "graph", "lower", "print", "punct",
    "space", "upper", "word", "xdigit"]

/-- The alphabet whose name comes next between colons, behind an opening bracket, and what
follows its closing bracket. -/
def alphabet? (text : List Char) : Option (CharSet × List Char) :=
  let close (negated : Bool) (text : List Char) : Option (CharSet × List Char) :=
    let name := text.takeWhile (· != ':')
    match text.drop name.length with
    | ':' :: ']' :: rest =>
      if alphabets.contains (String.ofList name) then some (.named negated, rest) else none
    | _ => none
  match text with
  | ':' :: '^' :: rest => close true rest
  | ':' :: rest => close false rest
  | _ => none

def element : Reader CharSet := do
  match ← ahead with
  | [] => refuse
  | c :: rest =>
    goTo rest
    if c = '\\' then
      match ← escape with
      | .literal l => return .literal l
      | .shorthand negated => return .shorthand negated
      | _ => refuse
    else return .literal ⟨c, false⟩

def elementOrRange : Reader CharSet := do
  let first ← element
  skipSpace
  let next ← behindDash?
  if (← ahead).head? = some '-' && next != some ']' && next != some '-' then
    skip 1
    skipSpace
    match first, ← element with
    | .literal first, .literal last =>
      if first.char.toNat ≤ last.char.toNat then return .range first last else refuse
    | _, _ => refuse
  else return first

/-- Reads dashes that stand for themselves. The first argument counts down the characters. -/
def dashes : Nat → Reader (List CharSet)
  | 0 => return []
  | count + 1 => do
    if ← accept "-" then
      skipSpace
      return .literal ⟨'-', false⟩ :: (← dashes count)
    else return []

/-- Reads the front of a set behind its bracket: whether the set is meant to hold all other
characters, and the elements that stand for themselves only there. -/
def setFront : Reader (Bool × List CharSet) := do
  skipSpace
  let negated ← accept "^"
  if negated then skipSpace
  let elements ← dashes (← ahead).length
  if elements.isEmpty then
    if ← accept "]" then return (negated, [.literal ⟨']', false⟩])
  return (negated, elements)

/-- Adds a set to what is combined with it. -/
def combine (left : Option CharSet) (elements : List CharSet) : CharSet :=
  let right := CharSet.ofParts elements.reverse
  match left with
  | some left => .combined left right
  | none => right

/-- Reads the rest of a set, up to its closing bracket: `left` is combined with what follows,
and `elements`, the latest first, have been read. The first argument counts down the
characters. -/
def setRest : Nat → Option CharSet → List CharSet → Reader CharSet
  | 0, _, _ => refuse
  | count + 1, left, elements => do
    skipSpace
    match ← ahead with
    | [] => refuse
    | ']' :: rest =>
      goTo rest
      return combine left elements
    | '[' :: rest =>
      match alphabet? rest with
      | some (alphabet, rest) =>
        goTo rest
        setRest count left (alphabet :: elements)
      | none =>
        goTo rest
        let (negated, front) ← setFront
        let inside ← setRest count none front.reverse
        setRest count left (.brackets negated inside :: elements)
    | c :: d :: rest =>
      if c = d && "&-~".contains c then
        goTo rest
        setRest count (some (combine left elements)) []
      else setRest count left ((← elementOrRange) :: elements)
    | _ => refuse

def bracketSet : Reader Pattern := do
  let (negated, front) ← setFront
  let inside ← setRest ((← ahead).length + 1) none front.reverse
  return .set (.brackets negated inside)

/-! ## Groups -/

def isName : List Char → Bool
  | [] => false
  | c :: rest =>
    (c = '_' || Text.isAlphabetic c) &&
      rest.all fun c => "_.[]".contains c || Text.isAlphanumeric c

/-- Reads the name of a group, which no other group has. -/
def groupName : Reader Unit := do
  let name := (← ahead).takeWhile (· != '>')
  skip name.length
  expect ">"
  if !isName name || (← get).names.contains name then refuse
  modify fun p => { p with names := name :: p.names }

/-- Whether a flag is among some flags, and in front of the dash that switches flags off. -/
def flag? (flag : Char) (chars : List Char) : Option Bool :=
  if chars.contains flag then some ((chars.takeWhile (· != '-')).contains flag) else none

/-- The flags of some letters, each of which comes only once. A dash may not come last. -/
def flags? (chars : List Char) : Option PatternFlags :=
  if (chars.all fun c => "imsUuRx-".contains c) ∧ chars.eraseDups = chars ∧ chars.getLast? ≠ some '-' then
    some ⟨flag? 'x' chars, flag? 'i' chars, flag? 'u' chars⟩
  else none

inductive Opening where
  /-- a group that follows, with flags for what is inside -/
  | group (flags : PatternFlags)
  /-- no group but flags for what follows -/
  | flags (flags : PatternFlags)
deriving DecidableEq, Inhabited

/-- Reads the beginning of a group behind its bracket. What would look ahead or back is
refused. -/
def opening : Reader Opening := do
  skipSpace
  if ← acceptAny ["?=", "?!", "?<=", "?<!"] then refuse
  else if ← acceptAny ["?P<", "?<"] then
    groupName
    return .group PatternFlags.none
  else if ← accept "?" then
    let chars := (← ahead).takeWhile fun c => c != ':' && c != ')'
    skip chars.length
    match flags? chars with
    | none => refuse
    | some inside =>
      if ← accept ":" then return .group inside
      expect ")"
      if chars.isEmpty then refuse
      return .flags inside
  else return .group PatternFlags.none

/-- From here on spaces stand for nothing, or for themselves. -/
def setSpaced (spaced : Bool) : Reader Unit := modify fun p => { p with spaced }

/-- The pattern of alternatives, the latest first, of which the last one is given by its
parts, the latest first. -/
def finish (earlier parts : List Pattern) : Pattern :=
  Pattern.ofAlternatives (Pattern.ofParts parts.reverse :: earlier).reverse

/-- Reads a pattern up to the end of its group: `earlier` alternatives and the `parts` of one
more, the latest first, have been read. The first argument counts down the characters. -/
def groupRest : Nat → List Pattern → List Pattern → Reader Pattern
  | 0, _, _ => refuse
  | count + 1, earlier, parts => do
    skipSpace
    match ← ahead with
    | [] => return finish earlier parts
    | c :: rest =>
      if c = ')' then return finish earlier parts
      else if c = '|' then
        goTo rest
        groupRest count (Pattern.ofParts parts.reverse :: earlier) []
      else if c = '(' then
        goTo rest
        match ← opening with
        | .flags f =>
          setSpaced (f.spaced.getD (← get).spaced)
          groupRest count earlier (.flags f :: parts)
        | .group f =>
          let outside := (← get).spaced
          setSpaced (f.spaced.getD outside)
          let inside ← groupRest count [] []
          expect ")"
          setSpaced outside
          groupRest count earlier (.group f inside :: parts)
      else if c = '[' then
        goTo rest
        groupRest count earlier ((← bracketSet) :: parts)
      else if "?*+".contains c then
        match parts with
        | [] => refuse
        | .flags _ :: _ => refuse
        | part :: parts =>
          goTo rest
          discard (accept "?")
          groupRest count earlier (.repetition part :: parts)
      else if c = '\x7b' then refuse
      else groupRest count earlier ((← character) :: parts)

end Reader

def ofChars? (text : List Char) : Option Pattern :=
  match (Reader.groupRest (text.length + 1) [] []).run ⟨text, false, []⟩ with
  | some (pattern, place) => if place.rest.isEmpty then some pattern else none
  | none => none

end Pattern

end StagedSearch
