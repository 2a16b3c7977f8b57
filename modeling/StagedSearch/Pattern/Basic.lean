/-
# Patterns

A pattern describes texts: characters stand for themselves, sets of characters for any of
them, and parts are repeated, joined, and given as alternatives. Patterns are only asked
whether they are well formed and can be matched, so of a part no more is kept than that
depends on: of a repetition not how often, and of an alphabet that is named not its name.
-/

namespace StagedSearch

/-- A character of a pattern that stands for itself. -/
structure Literal where
  char : Char
  /-- whether the pattern gives it by the two digits of a byte -/
  ofByte : Bool
deriving DecidableEq, Inhabited

inductive CharSet where
  | empty
  | literal (literal : Literal)
  /-- all characters between two, with both of them -/
  | range (first last : Literal)
  /-- digits, spaces or characters of words, or all others -/
  | shorthand (negated : Bool)
  /-- an alphabet with a name, or all that is outside of it -/
  | named (negated : Bool)
  | brackets (negated : Bool) (inside : CharSet)
  | union (parts : List CharSet)
  /-- what two sets have in common, or what only one of them has -/
  | combined (left right : CharSet)
deriving Inhabited

/-- What the flags of a group switch on or off. Flags that have no say in whether a pattern
can be matched are left out. -/
structure PatternFlags where
  /-- whether spaces and comments stand for nothing -/
  spaced : Option Bool
  /-- whether small and capital letters are the same -/
  caseless : Option Bool
  /-- whether the pattern is about characters of all scripts, or else about bytes -/
  unicode : Option Bool
deriving DecidableEq, Inhabited

def PatternFlags.none : PatternFlags := ⟨.none, .none, .none⟩

inductive Pattern where
  | empty
  /-- flags for all that follows in the group -/
  | flags (flags : PatternFlags)
  | literal (literal : Literal)
  | anyChar
  /-- an end of a line or of the text -/
  | anchor
  /-- an end of a word, or a place that is none -/
  | boundary
  | shorthand (negated : Bool)
  | set (set : CharSet)
  | repetition (part : Pattern)
  | group (flags : PatternFlags) (part : Pattern)
  | sequence (parts : List Pattern)
  | alternatives (parts : List Pattern)
deriving Inhabited

/-! ## Lists of parts -/

def CharSet.ofParts : List CharSet → CharSet
  | [] => .empty
  | [part] => part
  | parts => .union parts

def Pattern.ofParts : List Pattern → Pattern
  | [] => .empty
  | [part] => part
  | parts => .sequence parts

def Pattern.ofAlternatives : List Pattern → Pattern
  | [part] => part
  | parts => .alternatives parts

/-! ## Depth -/

namespace CharSet

mutual

/-- How deep brackets, unions and combinations are nested. -/
def depth : CharSet → Nat
  | brackets _ inside => depth inside + 1
  | union parts => depthAll parts + 1
  | combined left right => Nat.max (depth left) (depth right) + 1
  | _ => 0

def depthAll : List CharSet → Nat
  | [] => 0
  | part :: parts => Nat.max (depth part) (depthAll parts)

end

end CharSet

namespace Pattern

mutual

/-- How deep the parts of a pattern are nested. -/
def depth : Pattern → Nat
  | set s => s.depth
  | repetition part => depth part + 1
  | group _ part => depth part + 1
  | sequence parts => depthAll parts + 1
  | alternatives parts => depthAll parts + 1
  | _ => 0

def depthAll : List Pattern → Nat
  | [] => 0
  | part :: parts => Nat.max (depth part) (depthAll parts)

end

def maxDepth : Nat := 250

end Pattern

end StagedSearch
