/-
# Scalars of TOML

Strings, numbers, times and truth values. Options only ask for truth values and whole
numbers, so of every other value it is enough to know that it is well formed.
-/

import StagedSearch.Number.Bounded
import StagedSearch.Options.Reading

namespace StagedSearch

namespace Toml

/-- A value, as far as options tell values apart. -/
inductive Value where
  | boolean (value : Bool)
  | integer (value : Int)
  | other
deriving DecidableEq, Inhabited

def isBlank (c : Char) : Bool := c = ' ' || c = '\t'

/-- Characters that may stand in comments and strings as they are. -/
def isPlain (c : Char) : Bool := c = '\t' || (decide (32 ≤ c.toNat) && decide (c.toNat ≠ 127))

def codePoint? (digits : List Char) : Option Char := do
  let n ← Text.digits? 16 digits
  if n.isValidChar then some (Char.ofNat n) else none

def basicString : List Char → Option (List Char × List Char)
  | [] => none
  | '"' :: rest => some ([], rest)
  | '\\' :: 'b' :: rest => (basicString rest).map fun (s, r) => ('\x08' :: s, r)
  | '\\' :: 't' :: rest => (basicString rest).map fun (s, r) => ('\t' :: s, r)
  | '\\' :: 'n' :: rest => (basicString rest).map fun (s, r) => ('\n' :: s, r)
  | '\\' :: 'f' :: rest => (basicString rest).map fun (s, r) => ('\x0c' :: s, r)
  | '\\' :: 'r' :: rest => (basicString rest).map fun (s, r) => ('\r' :: s, r)
  | '\\' :: '"' :: rest => (basicString rest).map fun (s, r) => ('"' :: s, r)
  | '\\' :: '\\' :: rest => (basicString rest).map fun (s, r) => ('\\' :: s, r)
  | '\\' :: 'u' :: a :: b :: c :: d :: rest => do
    let char ← codePoint? [a, b, c, d]
    let (s, r) ← basicString rest
    return (char :: s, r)
  | '\\' :: 'U' :: a :: b :: c :: d :: e :: f :: g :: h :: rest => do
    let char ← codePoint? [a, b, c, d, e, f, g, h]
    let (s, r) ← basicString rest
    return (char :: s, r)
  | '\\' :: _ => none
  | c :: rest =>
    if isPlain c then (basicString rest).map fun (s, r) => (c :: s, r) else none

def literalString : List Char → Option (List Char × List Char)
  | [] => none
  | '\x27' :: rest => some ([], rest)
  | c :: rest =>
    if isPlain c then (literalString rest).map fun (s, r) => (c :: s, r) else none

/-- Passes over the closing quotes of a string of several lines. Up to two more quotes may
stand before the three that close it. -/
def closeQuotes (quote : Char) (text : List Char) : List Char :=
  text.drop (Nat.min 5 (text.takeWhile (· = quote)).length)

def threeQuotes (quote : Char) (text : List Char) : Bool := [quote, quote, quote].isPrefixOf text

/-- Passes over blanks and line ends, as a backslash at the end of a line asks for. A carriage
return ends a line only together with a line feed. -/
def skipFold : List Char → List Char
  | [] => []
  | '\r' :: '\n' :: rest => skipFold rest
  | c :: rest => if isBlank c || c = '\n' then skipFold rest else c :: rest

def foldsLine (text : List Char) : Bool :=
  match text.dropWhile isBlank with
  | '\n' :: _ => true
  | '\r' :: '\n' :: _ => true
  | _ => false

/-- Passes over a string of several lines in double quotes. The first argument counts down
the characters that may be left. -/
def longBasic : Nat → List Char → Option (List Char)
  | 0, _ => none
  | _, [] => none
  | count + 1, '\\' :: rest =>
    if foldsLine rest then longBasic count (skipFold rest)
    else
      match rest with
      | 'u' :: a :: b :: c :: d :: more =>
        if (codePoint? [a, b, c, d]).isSome then longBasic count more else none
      | 'U' :: a :: b :: c :: d :: e :: f :: g :: h :: more =>
        if (codePoint? [a, b, c, d, e, f, g, h]).isSome then longBasic count more else none
      | c :: more => if "btnfr\"\\".contains c then longBasic count more else none
      | [] => none
  | count + 1, '\r' :: '\n' :: rest => longBasic count rest
  | count + 1, c :: rest =>
    if threeQuotes '"' (c :: rest) then some (closeQuotes '"' (c :: rest))
    else if isPlain c || c = '\n' then longBasic count rest
    else none

/-- Passes over a string of several lines in single quotes. -/
def longLiteral : Nat → List Char → Option (List Char)
  | 0, _ => none
  | _, [] => none
  | count + 1, '\r' :: '\n' :: rest => longLiteral count rest
  | count + 1, c :: rest =>
    if threeQuotes '\x27' (c :: rest) then some (closeQuotes '\x27' (c :: rest))
    else if isPlain c || c = '\n' then longLiteral count rest
    else none

/-- Digits with single underscores between them, without the underscores. -/
def ungroup (isDigit : Char → Bool) : List Char → Option (List Char)
  | [] => none
  | c :: rest =>
    if !isDigit c then none
    else
      match rest with
      | [] => some [c]
      | '_' :: more => (ungroup isDigit more).map (c :: ·)
      | d :: more => (ungroup isDigit (d :: more)).map (c :: ·)

/-- A number without a sign in a base other than ten. -/
def based? (base : Nat) (chars : List Char) : Option Nat := do
  let digits ← ungroup (fun c => (Text.digits? base [c]).isSome) chars
  Text.digits? base digits

/-- A number without a sign in base ten; only zero begins with a zero. -/
def decimal? (chars : List Char) : Option Nat := do
  let digits ← ungroup Char.isDigit chars
  match digits with
  | '0' :: _ :: _ => none
  | _ => Text.digits? 10 digits

def splitSign : List Char → Bool × List Char
  | '-' :: rest => (true, rest)
  | '+' :: rest => (false, rest)
  | chars => (false, chars)

def wholeNumber? : List Char → Option Int
  | '0' :: 'x' :: rest => (based? 16 rest).map Int.ofNat
  | '0' :: 'o' :: rest => (based? 8 rest).map Int.ofNat
  | '0' :: 'b' :: rest => (based? 2 rest).map Int.ofNat
  | chars =>
    let (negative, rest) := splitSign chars
    (decimal? rest).map fun n => if negative then -(n : Int) else n

/-- The exponent of a number, behind its digits; nothing is the exponent zero. -/
def exponent? : List Char → Option Int
  | [] => some 0
  | _ :: chars => do
    let (negative, rest) := splitSign chars
    let n ← Text.digits? 10 (← ungroup Char.isDigit rest)
    return if negative then -(n : Int) else n

/-- The digits of a number with a fraction or an exponent, and the power of ten that they
are multiplied with. -/
def fraction? (chars : List Char) : Option (Nat × Int) := do
  let rest := (splitSign chars).2
  let isE (c : Char) : Bool := c = 'e' || c = 'E'
  let whole := rest.takeWhile fun c => !isE c && c != '.'
  let digits ← decimal? whole
  match rest.drop whole.length with
  | [] => none
  | '.' :: more =>
    let places := more.takeWhile fun c => !isE c
    let placeDigits ← ungroup Char.isDigit places
    let exponent ← exponent? (more.drop places.length)
    let behind ← Text.digits? 10 placeDigits
    return (digits * Nat.pow 10 placeDigits.length + behind, exponent - placeDigits.length)
  | exponent => return (digits, ← exponent? exponent)

/-- What is not below this number is infinite when it is rounded to 53 bits. -/
def infiniteFrom : Nat := Nat.pow 2 1024 - Nat.pow 2 970

/-- Whether some digits times a power of ten are infinite when they are rounded. The number
of places decides, unless it is that of the bound. -/
def isInfinite (digits : Nat) (scale : Int) : Bool :=
  let places := (Nat.toDigits 10 digits).length + scale
  if digits = 0 ∨ places < 309 then false
  else if 309 < places then true
  else if 0 ≤ scale then decide (infiniteFrom ≤ digits * Nat.pow 10 scale.toNat)
  else decide (infiniteFrom * Nat.pow 10 (-scale).toNat ≤ digits)

/-- Whether some characters are a number with a fraction or an exponent. A positive one may
not be infinite. -/
def isFraction (chars : List Char) : Bool :=
  match fraction? chars with
  | some (digits, scale) => (splitSign chars).1 || !isInfinite digits scale
  | none => false

/-- Whether some characters are a number that is none, or beyond all numbers. -/
def isSpecial (chars : List Char) : Bool :=
  let rest := (splitSign chars).2
  rest = "inf".toList || rest = "nan".toList

def twoDigits? (a b : Char) : Option Nat := Text.digits? 10 [a, b]

def daysIn (year month : Nat) : Nat :=
  if month = 2 then
    if year % 4 = 0 ∧ (year % 100 ≠ 0 ∨ year % 400 = 0) then 29 else 28
  else if month = 4 ∨ month = 6 ∨ month = 9 ∨ month = 11 then 30
  else 31

def afterDate? : List Char → Option (List Char)
  | y₁ :: y₂ :: y₃ :: y₄ :: '-' :: m₁ :: m₂ :: '-' :: d₁ :: d₂ :: rest => do
    let year ← Text.digits? 10 [y₁, y₂, y₃, y₄]
    let month ← twoDigits? m₁ m₂
    let day ← twoDigits? d₁ d₂
    if 1 ≤ month ∧ month ≤ 12 ∧ 1 ≤ day ∧ day ≤ daysIn year month then some rest else none
  | _ => none

/-- Whether two numbers of two digits with a colon between them are an hour and a minute. -/
def isHourMinute (h₁ h₂ m₁ m₂ : Char) : Bool :=
  match twoDigits? h₁ h₂, twoDigits? m₁ m₂ with
  | some hour, some minute => decide (hour ≤ 23) && decide (minute ≤ 59)
  | _, _ => false

def afterTime? : List Char → Option (List Char)
  | h₁ :: h₂ :: ':' :: m₁ :: m₂ :: ':' :: s₁ :: s₂ :: rest => do
    let second ← twoDigits? s₁ s₂
    if isHourMinute h₁ h₂ m₁ m₂ ∧ second ≤ 60 then
      match rest with
      | '.' :: more =>
        if (more.takeWhile Char.isDigit).isEmpty then none else some (more.dropWhile Char.isDigit)
      | rest => some rest
    else none
  | _ => none

/-- Whether some characters are the distance to universal time, or nothing. -/
def isOffset : List Char → Bool
  | [] => true
  | [c] => c = 'Z' || c = 'z'
  | [sign, h₁, h₂, ':', m₁, m₂] => (sign = '+' || sign = '-') && isHourMinute h₁ h₂ m₁ m₂
  | _ => false

def isMoment (chars : List Char) : Bool :=
  match afterDate? chars with
  | some [] => true
  | some (c :: rest) =>
    (c = 'T' || c = 't' || c = ' ') &&
      (match afterTime? rest with
       | some offset => isOffset offset
       | none => false)
  | none => afterTime? chars = some []

/-- The value of a word that is neither a string nor a collection. -/
def word? (chars : List Char) : Option Value :=
  if chars = "true".toList then some (.boolean true)
  else if chars = "false".toList then some (.boolean false)
  else
    match wholeNumber? chars with
    | some n => (Signed64.checked n).map .integer
    | none => if isFraction chars || isSpecial chars || isMoment chars then some .other else none

def isWordChar (c : Char) : Bool := c.isAlphanum || "+-._:".contains c

/-- The characters of a word that begins a text, and those behind it. Between a date and a
time of day there may be a blank. -/
def splitWord (text : List Char) : List Char × List Char :=
  let first := text.takeWhile isWordChar
  match text.dropWhile isWordChar with
  | ' ' :: c :: rest =>
    if afterDate? first = some [] ∧ c.isDigit then
      (first ++ ' ' :: (c :: rest).takeWhile isWordChar, (c :: rest).dropWhile isWordChar)
    else (first, ' ' :: c :: rest)
  | rest => (first, rest)

def word : Reading Value :=
  Reading.ofFunction fun text =>
    let (chars, rest) := splitWord text
    (word? chars).map (·, rest)

def string : Reading Unit := do
  if ← Reading.accept "\"\"\"" then
    Reading.ofFunction fun text => (longBasic (text.length + 1) text).map ((), ·)
  else if ← Reading.accept "'''" then
    Reading.ofFunction fun text => (longLiteral (text.length + 1) text).map ((), ·)
  else if ← Reading.accept "\"" then
    discard (Reading.ofFunction basicString)
  else
    Reading.expect "'"
    discard (Reading.ofFunction literalString)

end Toml

end StagedSearch
