/-
# Clocks

A clock tells the time that has passed since it was made, in nanoseconds. What it tells at
each reading is settled in advance, and the clock only counts its readings. So the same
clock gives the same search, and how often it is read is part of what a search does.
-/

import StagedSearch.Number.Bounded

namespace StagedSearch

structure Clock where
  /-- what the clock tells when it has been read a number of times before -/
  timeAt : Nat → Nat
  /-- how often it has been read -/
  reads : Nat
deriving Inhabited

namespace Clock

/-- The longest time that can be told: as many whole seconds as 64 bits count, and all but the
last nanosecond of one more. -/
def longest : Nat := Unsigned64.modulus * 1000000000 - 1

def still : Clock := ⟨fun _ => 0, 0⟩

/-- A clock that moves forward by `step` with every reading; the first one tells zero. Its
counter has 64 bits and stays at its end. -/
def ofStep (step : Nat) : Clock :=
  ⟨fun reads => Unsigned64.saturate (reads * Unsigned64.saturate step), 0⟩

def read (c : Clock) : Nat × Clock := (c.timeAt c.reads, { c with reads := c.reads + 1 })

/-- Moves a clock on. The distance is cut to the range of a counter of 64 bits, and the
counter starts over at its end. -/
def advance (distance : Nat) (c : Clock) : Clock :=
  let timeAt (reads : Nat) : Nat :=
    (c.timeAt reads + Unsigned64.saturate distance) % Unsigned64.modulus
  { c with timeAt }

def NeverGoesBack (c : Clock) : Prop :=
  ∀ earlier later, earlier ≤ later → c.timeAt earlier ≤ c.timeAt later

end Clock

end StagedSearch
