/-
# Numerals

A number is written with decimal digits. It may have a sign, a fraction behind a point, and a
power of ten behind an `e`; on one side of the point the digits may be missing. What is no
finite number has a name, in any case of letters.
-/

namespace StagedSearch

namespace Text

/-- The characters behind a sign, if there is one. -/
def unsigned (chars : List Char) : List Char :=
  if chars.head? = some '+' ∨ chars.head? = some '-' then chars.drop 1 else chars

/-- Whether some characters are the power of ten behind the digits of a number, which may be
missing. -/
def isExponent : List Char → Bool
  | [] => true
  | c :: rest =>
    let digits := unsigned rest
    (c = 'e' || c = 'E') && !digits.isEmpty && digits.all Char.isDigit

/-- Whether some characters are a number without a sign. -/
def isDecimal (chars : List Char) : Bool :=
  let whole := chars.takeWhile Char.isDigit
  let rest := chars.drop whole.length
  let places := if rest.head? = some '.' then (rest.drop 1).takeWhile Char.isDigit else []
  let behind := if rest.head? = some '.' then (rest.drop 1).drop places.length else rest
  !(whole ++ places).isEmpty && isExponent behind

/-- Whether some characters are the name of what is no finite number. -/
def isSpecialNumber (chars : List Char) : Bool :=
  ["inf", "infinity", "nan"].contains (String.ofList (chars.map Char.toLower))

def isNumeral (chars : List Char) : Bool :=
  let number := unsigned chars
  isDecimal number || isSpecialNumber number

end Text

end StagedSearch
