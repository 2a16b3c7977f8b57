/-
# Shuffling

A list is shuffled by exchanging each place with a random earlier one or itself. One
random number serves several places: it is drawn below a product of consecutive numbers
and taken apart digit by digit.
-/

import StagedSearch.Random.ChaCha

namespace StagedSearch

namespace Shuffle

/-- Multiplies `product` by consecutive factors, the first of them `factor`, while the
result stays below `2 ^ 32`. Gives the product and the first factor left out. -/
def widen (product factor : Nat) : Nat × Nat :=
  if product < product * factor ∧ product * factor < Unsigned32.modulus then
    widen (product * factor) (factor + 1)
  else (product, factor)
termination_by Unsigned32.modulus - product

/-- The part of a random number that is not used up, how many places it still serves, and
the generator of the next one. -/
structure Source where
  chunk : Nat
  places : Nat
  generator : Generator
deriving DecidableEq, Inhabited

/-- Makes a number below `bound`, where the calls count `bound` up from 1. -/
def Source.next (s : Source) (bound : Nat) : Nat × Source :=
  let s : Source :=
    if s.places = 0 then
      let (product, factor) := widen bound (bound + 1)
      let (chunk, generator) := s.generator.nextBelow product
      ⟨chunk, factor - bound, generator⟩
    else s
  let places := s.places - 1
  if places = 0 then (s.chunk, { s with places })
  else (s.chunk % bound, { s with places, chunk := s.chunk / bound })

/-- Exchanges place `index` and every later one of the array with a random place before it
or itself. `count` says how many places are left. -/
def exchange {α : Type} : Nat → Nat → Array α → Source → Array α × Source
  | 0, _, values, source => (values, source)
  | count + 1, index, values, source =>
    let (target, source) := source.next (index + 1)
    exchange count (index + 1) (values.swapIfInBounds index target) source

end Shuffle

/-- A random order of a list. Lists of at most one element draw nothing. -/
def shuffle {α : Type} (values : List α) (generator : Generator) : List α × Generator :=
  if values.length ≤ 1 then (values, generator)
  else
    let (shuffled, source) := Shuffle.exchange values.length 0 values.toArray ⟨0, 1, generator⟩
    (shuffled.toList, source.generator)

end StagedSearch
