/-
# Patterns that can be matched

The letters, digits and spaces of all scripts are not known here, and neither are the pairs
of small and capital letters. A pattern that is about characters can be matched only if it
does without them: it has no shorthands, no ends of words, and where small and capital
letters are the same nothing that has a case or might have one. A pattern that is about bytes
may have all of these, for then they mean ASCII alone, but nothing in it may match a byte
that is only a part of a character.
-/

import StagedSearch.Pattern.Basic

namespace StagedSearch

/-- How a part of a pattern is meant. -/
structure PatternMode where
  unicode : Bool
  caseless : Bool
deriving DecidableEq, Inhabited

namespace PatternMode

def start : PatternMode := ⟨true, false⟩

def set (flags : PatternFlags) (m : PatternMode) : PatternMode :=
  ⟨flags.unicode.getD m.unicode, flags.caseless.getD m.caseless⟩

/-- Whether shorthands are known; the negation of one holds parts of characters. -/
def knowsShorthand (m : PatternMode) (negated : Bool) : Bool := !m.unicode && !negated

/-- Whether a character outside of all sets can be matched. -/
def knowsLiteral (m : PatternMode) (l : Literal) : Bool :=
  if m.unicode then !m.caseless else !l.ofByte || decide (l.char.toNat < 128)

/-- Whether a character inside of a set can be matched. -/
def knowsElement (m : PatternMode) (l : Literal) : Bool :=
  if m.unicode then !m.caseless else decide (l.char.toNat < 128)

/-- Whether a set may hold an alphabet with a name, or the rest of one. -/
def knowsNamed (m : PatternMode) (negated : Bool) : Bool :=
  if m.unicode then !m.caseless else !negated

end PatternMode

namespace CharSet

mutual

def isKnown (m : PatternMode) : CharSet → Bool
  | empty => true
  | literal l => m.knowsElement l
  | range first last => m.knowsElement first && m.knowsElement last
  | shorthand negated => m.knowsShorthand negated
  | named negated => m.knowsNamed negated
  | brackets negated inside => isKnown m inside && (m.unicode || !negated)
  | union parts => allKnown m parts
  | combined left right => isKnown m left && isKnown m right

def allKnown (m : PatternMode) : List CharSet → Bool
  | [] => true
  | part :: parts => isKnown m part && allKnown m parts

end

end CharSet

namespace Pattern

mutual

/-- How what follows a pattern is meant, if the pattern can be matched. Flags end with their
group, but not with an alternative. -/
def modeAfter? : Pattern → PatternMode → Option PatternMode
  | empty, m => some m
  | flags f, m => some (m.set f)
  | literal l, m => if m.knowsLiteral l then some m else none
  | anyChar, m => if m.unicode then some m else none
  | anchor, m => some m
  | boundary, m => if m.unicode then none else some m
  | shorthand negated, m => if m.knowsShorthand negated then some m else none
  | set s, m => if s.isKnown m then some m else none
  | repetition part, m => modeAfter? part m
  | group f part, m => (modeAfter? part (m.set f)).map fun _ => m
  | sequence parts, m => modeAfterAll? parts m
  | alternatives parts, m => modeAfterAll? parts m

/-- How what follows some patterns is meant, if all of them can be matched. -/
def modeAfterAll? : List Pattern → PatternMode → Option PatternMode
  | [], m => some m
  | part :: parts, m => (modeAfter? part m).bind (modeAfterAll? parts)

end

def isSupported (p : Pattern) : Bool :=
  decide (p.depth ≤ maxDepth) && (p.modeAfter? PatternMode.start).isSome

end Pattern

end StagedSearch
