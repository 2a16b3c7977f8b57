/-
# Set domains

A finite set of integers is written as the ascending list of its elements. A set domain
holds the sets between a lower bound, whose elements are decided to be in, and an upper
bound, outside of which nothing may be. Its undecided elements are those between.
-/

import StagedSearch.Number.Bounded

namespace StagedSearch

/-- A finite set of integers as the ascending list of its elements. -/
abbrev Elements := List Int

namespace Elements

/-- Adds an element at its place; one that is present stays single. -/
def insert (element : Int) : Elements → Elements
  | [] => [element]
  | e :: rest =>
    if element < e then element :: e :: rest
    else if element = e then e :: rest
    else e :: insert element rest

/-- The set of the listed numbers, in any order and with any repetition. -/
def ofList (elements : List Int) : Elements := elements.foldr insert []

def remove (element : Int) (set : Elements) : Elements := set.filter (· != element)

def render (set : Elements) : String :=
  "\x7b" ++ ", ".intercalate (set.map toString) ++ "\x7d"

end Elements

/-- The sets that contain `glb` and are contained in `lub`. -/
structure SetDomain where
  glb : Elements
  lub : Elements
deriving DecidableEq, Inhabited

namespace SetDomain

/-- The domain between two bounds, unless the lower one leaves the upper one. -/
def ofBounds? (glb lub : List Int) : Option SetDomain :=
  let lower := Elements.ofList glb
  let upper := Elements.ofList lub
  if lower.all (upper.contains ·) then some ⟨lower, upper⟩ else none

/-- The elements that may still be in or out, ascending. -/
def undecided (d : SetDomain) : List Int := d.lub.filter (!d.glb.contains ·)

/-- The number of admissible sets as it is reported. The undecided elements are counted in 32
bits. -/
def size (d : SetDomain) : Nat :=
  let free := (d.lub.length - d.glb.length) % Unsigned32.modulus
  if free < 64 then Nat.pow 2 free else Unsigned64.greatest

/-- Only one set is left when the bounds have equally many elements. -/
def isSingleton (d : SetDomain) : Bool := d.glb.length == d.lub.length

/-- Decides that an element is in, and says whether that is new. An element outside the
upper bound cannot be in. -/
def include? (d : SetDomain) (element : Int) : Option (SetDomain × Bool) :=
  if d.lub.contains element then
    some (⟨Elements.insert element d.glb, d.lub⟩, !d.glb.contains element)
  else none

/-- Decides that an element is out, and says whether that is new. An element of the lower
bound cannot be out. -/
def exclude? (d : SetDomain) (element : Int) : Option (SetDomain × Bool) :=
  if d.glb.contains element then none
  else some (⟨d.glb, Elements.remove element d.lub⟩, d.lub.contains element)

/-- A decided set is written alone, an undecided one by its two bounds. -/
def render (d : SetDomain) : String :=
  if d.isSingleton then Elements.render d.glb
  else Elements.render d.glb ++ ".." ++ Elements.render d.lub

end SetDomain

end StagedSearch
