/-
# Digits

Numbers are written in digits of a base; behind the digit nine come the letters.
-/

namespace StagedSearch

namespace Text

/-- The value of digits in a base, if they are digits of that base. -/
def digits? (base : Nat) (chars : List Char) : Option Nat :=
  chars.foldlM
    (fun value c =>
      let digit :=
        if c.isDigit then c.toNat - '0'.toNat
        else if 'a' ≤ c ∧ c ≤ 'z' then c.toNat - 'a'.toNat + 10
        else if 'A' ≤ c ∧ c ≤ 'Z' then c.toNat - 'A'.toNat + 10
        else base
      if digit < base then some (value * base + digit) else none)
    0

end Text

end StagedSearch
