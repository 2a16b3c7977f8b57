/-
# Spaces

Characters that separate words without being seen: spaces of all widths, tabs, and all
characters that end a line.
-/

import StagedSearch.Text.Ranges

namespace StagedSearch

namespace Text

def spaceRanges : List (Nat × Nat) :=
  [(0x9, 0xd), (0x20, 0x20), (0x85, 0x85), (0xa0, 0xa0), (0x1680, 0x1680), (0x2000, 0x200a),
   (0x2028, 0x2029), (0x202f, 0x202f), (0x205f, 0x205f), (0x3000, 0x3000)]

def isSpace (c : Char) : Bool := inRanges spaceRanges c

end Text

end StagedSearch
