/-
# Places counted in bytes

A place in a text may be counted in the bytes of its encoding, of which a character takes
one to four. Where a count ends inside of a character the whole character belongs to what
stands in front of the place.
-/

namespace StagedSearch

namespace Text

def byteCount : List Char → Nat
  | [] => 0
  | c :: rest => c.utf8Size + byteCount rest

def dropBytes : Nat → List Char → List Char
  | _, [] => []
  | count, c :: rest => if count = 0 then c :: rest else dropBytes (count - c.utf8Size) rest

def takeBytes : Nat → List Char → List Char
  | _, [] => []
  | count, c :: rest => if count = 0 then [] else c :: takeBytes (count - c.utf8Size) rest

/-- A place divides a text into two parts. -/
theorem takeBytes_append_dropBytes (count : Nat) (text : List Char) :
    takeBytes count text ++ dropBytes count text = text := by
  induction text generalizing count with
  | nil => rfl
  | cons c rest ih =>
    unfold takeBytes dropBytes
    split
    · rfl
    · simp [ih]

/-- Behind some characters, which take so many bytes, stands what follows them. -/
theorem dropBytes_byteCount (front rest : List Char) :
    dropBytes (byteCount front) (front ++ rest) = rest := by
  induction front with
  | nil => cases rest <;> rfl
  | cons c front ih =>
    have h : c.utf8Size ≠ 0 := Nat.ne_of_gt c.utf8Size_pos
    simp [byteCount, dropBytes, h, ih]

end Text

end StagedSearch
