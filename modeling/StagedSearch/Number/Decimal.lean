/-
# Decimal texts of numbers

Counts are written in groups of three digits. A quotient is written with two places after
it was rounded twice, as a computation with binary floating point does: first to the
nearest fraction with 53 significant bits, and then to the nearest hundredth. Both times a
tie goes to the even neighbour.
-/

namespace StagedSearch

namespace Decimal

/-- Digits in groups of three, counted from the end of the number. -/
def groupDigits : List Char → List Char
  | [] => []
  | c :: rest =>
    if rest.length % 3 = 0 ∧ rest ≠ [] then c :: ',' :: groupDigits rest
    else c :: groupDigits rest

/-- A count with a comma between groups of three digits. -/
def grouped (n : Nat) : String := String.ofList (groupDigits (toString n).toList)

/-- The nearest whole number to a quotient; of two the even one. -/
def roundQuotient (numerator denominator : Nat) : Nat :=
  let whole := numerator / denominator
  let rest := numerator % denominator
  if denominator < 2 * rest ∨ (denominator = 2 * rest ∧ whole % 2 = 1) then whole + 1 else whole

/-- How many binary places a quotient of at least 1 has when it keeps 53 significant bits. -/
def binaryPlaces (numerator denominator : Nat) : Nat := 52 - Nat.log2 (numerator / denominator)

/-- A quotient in hundredths, by way of 53 significant bits. -/
def hundredths (numerator denominator : Nat) : Nat :=
  let scale := Nat.pow 2 (binaryPlaces numerator denominator)
  roundQuotient (roundQuotient (numerator * scale) denominator * 100) scale

def padLeft (width : Nat) (text : String) : String :=
  "".pushn ' ' (width - text.length) ++ text

/-- A number of hundredths with a point and two places. -/
def renderHundredths (n : Nat) : String :=
  let places := toString (n % 100)
  toString (n / 100) ++ "." ++ (if n % 100 < 10 then "0" ++ places else places)

end Decimal

end StagedSearch
