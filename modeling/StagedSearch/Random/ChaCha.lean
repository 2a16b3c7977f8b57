/-
# The ChaCha8 generator

Random orders come from the ChaCha stream cipher with eight rounds, used as a generator:
the key is expanded from a 64-bit seed, the block counter starts at zero, and the words of
each block are handed out in order. Equal seeds give equal sequences, so a random search
can be repeated.
-/

import StagedSearch.Number.Bounded

namespace StagedSearch

namespace ChaCha

/-- Four words, one row of the cipher's square. -/
structure Row where
  a : UInt32
  b : UInt32
  c : UInt32
  d : UInt32
deriving DecidableEq, Inhabited

namespace Row

def zipWith (f : UInt32 → UInt32 → UInt32) (x y : Row) : Row :=
  ⟨f x.a y.a, f x.b y.b, f x.c y.c, f x.d y.d⟩

def turn (bits : UInt32) (x : Row) : Row :=
  let left (word : UInt32) := (word <<< bits) ||| (word >>> (32 - bits))
  ⟨left x.a, left x.b, left x.c, left x.d⟩

/-- The words moved one place to the left. -/
def shift (x : Row) : Row := ⟨x.b, x.c, x.d, x.a⟩

def words (x : Row) : List UInt32 := [x.a, x.b, x.c, x.d]

end Row

/-- The sixteen words of a block, row by row. -/
structure Square where
  first : Row
  second : Row
  third : Row
  fourth : Row
deriving DecidableEq, Inhabited

namespace Square

/-- The quarter round on all four columns at once. -/
def mixColumns (s : Square) : Square :=
  let first := s.first.zipWith (· + ·) s.second
  let fourth := (s.fourth.zipWith (· ^^^ ·) first).turn 16
  let third := s.third.zipWith (· + ·) fourth
  let second := (s.second.zipWith (· ^^^ ·) third).turn 12
  let first := first.zipWith (· + ·) second
  let fourth := (fourth.zipWith (· ^^^ ·) first).turn 8
  let third := third.zipWith (· + ·) fourth
  let second := (second.zipWith (· ^^^ ·) third).turn 7
  ⟨first, second, third, fourth⟩

/-- A column round and a diagonal round; the diagonals become columns by shifting rows. -/
def doubleRound (s : Square) : Square :=
  let s := s.mixColumns
  let s := mixColumns ⟨s.first, s.second.shift, s.third.shift.shift, s.fourth.shift.shift.shift⟩
  ⟨s.first, s.second.shift.shift.shift, s.third.shift.shift, s.fourth.shift⟩

/-- The output block of an input block: eight rounds, added to the input. -/
def scramble (s : Square) : Square :=
  let r := s.doubleRound.doubleRound.doubleRound.doubleRound
  ⟨r.first.zipWith (· + ·) s.first, r.second.zipWith (· + ·) s.second,
    r.third.zipWith (· + ·) s.third, r.fourth.zipWith (· + ·) s.fourth⟩

def words (s : Square) : List UInt32 :=
  s.first.words ++ s.second.words ++ s.third.words ++ s.fourth.words

end Square

/-- The constants of the first row, "expand 32-byte k" as little-endian words. -/
def constants : Row := ⟨0x61707865, 0x3320646e, 0x79622d32, 0x6b206574⟩

/-- One step of the seed expansion: the next 64-bit state and the key word read from it. -/
def expandSeed (state : UInt64) : UInt64 × UInt32 :=
  let state := state * 6364136223846793005 + 11634580027462260723
  let word := (((state >>> 18) ^^^ state) >>> 27).toUInt32
  let turn := (state >>> 59).toUInt32
  (state, (word >>> turn) ||| (word <<< ((32 - turn) % 32)))

def keyRow (state : UInt64) : UInt64 × Row :=
  let (state, a) := expandSeed state
  let (state, b) := expandSeed state
  let (state, c) := expandSeed state
  let (state, d) := expandSeed state
  (state, ⟨a, b, c, d⟩)

end ChaCha

/-- A generator: its key, the number of blocks made so far, and the words of the latest
block that have not been handed out. -/
structure Generator where
  lowKey : ChaCha.Row
  highKey : ChaCha.Row
  blocks : UInt64
  pending : List UInt32
deriving DecidableEq, Inhabited

namespace Generator

open ChaCha

def ofSeed (seed : UInt64) : Generator :=
  let (state, low) := keyRow seed
  let (_, high) := keyRow state
  ⟨low, high, 0, []⟩

/-- The words of the next block. -/
def block (g : Generator) : List UInt32 :=
  (Square.scramble
    ⟨constants, g.lowKey, g.highKey,
      ⟨g.blocks.toUInt32, (g.blocks >>> 32).toUInt32, 0, 0⟩⟩).words

def nextWord (g : Generator) : UInt32 × Generator :=
  match g.pending with
  | word :: rest => (word, { g with pending := rest })
  | [] =>
    match g.block with
    | word :: rest => (word, { g with blocks := g.blocks + 1, pending := rest })
    | [] => (0, g)

/-- The next 64-bit number, its low word first. -/
def nextNumber (g : Generator) : UInt64 × Generator :=
  let (low, g) := g.nextWord
  let (high, g) := g.nextWord
  (low.toUInt64 ||| (high.toUInt64 <<< 32), g)

/-- A number below `bound`, from the high half of a product with a random word. When the
low half shows that the word does not decide the result, a second word refines it. -/
def nextBelow (g : Generator) (bound : Nat) : Nat × Generator :=
  let (word, g) := g.nextWord
  let product := word.toNat * bound
  let high := product / Unsigned32.modulus
  let low := product % Unsigned32.modulus
  if Unsigned32.modulus - bound < low then
    let (word, g) := g.nextWord
    if Unsigned32.modulus ≤ low + word.toNat * bound / Unsigned32.modulus then (high + 1, g) else (high, g)
  else (high, g)

end Generator

end StagedSearch
