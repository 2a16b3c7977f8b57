/-
# Sinks

A sink takes the bytes that a solve writes. It may fail: after a number of bytes or lines,
or at a flush. A failing write still leaves the bytes that the sink could take, so what was
taken is always a beginning of what was meant to be written.
-/

import StagedSearch.Directive.Error

namespace StagedSearch

/-- How much a sink still takes. -/
inductive Room where
  | unlimited
  | bytes (left : Nat)
  /-- whole lines; a line is full with the byte that ends it -/
  | lines (left : Nat)
deriving DecidableEq, Inhabited

namespace Room

def lineEnd : UInt8 := 10

/-- How many of some bytes belong to a number of lines. -/
def lengthOfLines : Nat → List UInt8 → Nat
  | 0, _ => 0
  | _, [] => 0
  | count + 1, byte :: rest =>
    lengthOfLines (if byte = lineEnd then count else count + 1) rest + 1

/-- How many of some bytes find room, and the room that is left behind them. -/
def fit (room : Room) (bytes : ByteArray) : Nat × Room :=
  match room with
  | .unlimited => (bytes.size, .unlimited)
  | .bytes left => (min left bytes.size, .bytes (left - bytes.size))
  | .lines left =>
    (lengthOfLines left bytes.data.toList, .lines (left - bytes.data.toList.count lineEnd))

end Room

/-- The bytes taken so far, and how much and how many flushes are still accepted. Without a
number of flushes there is no limit to them. -/
structure Sink where
  taken : ByteArray
  room : Room
  flushes : Option Nat
deriving Inhabited

abbrev Writing := EStateM OutputFault Sink

namespace Sink

def reliable : Sink := ⟨ByteArray.empty, .unlimited, none⟩

def fault : OutputFault := ⟨"closed"⟩

/-- Writes a text, or the part of it that finds room. -/
def write (text : String) : Writing Unit := fun sink =>
  let bytes := text.toUTF8
  let (length, room) := sink.room.fit bytes
  let sink := { sink with taken := sink.taken ++ bytes.extract 0 length, room }
  if length < bytes.size then .error fault sink else .ok () sink

def flush : Writing Unit := fun sink =>
  match sink.flushes with
  | none => .ok () sink
  | some 0 => .error fault sink
  | some (flushes + 1) => .ok () { sink with flushes := some flushes }

/-- The text taken so far, if it does not end within a character. -/
def text? (sink : Sink) : Option String := String.fromUTF8? sink.taken

end Sink

end StagedSearch
