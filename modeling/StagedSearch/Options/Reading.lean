/-
# Reading characters

The readers of option texts take characters off the front of a list and either give a
result or refuse the text. A refusal says nothing more: callers only ask whether a text can
be read.
-/

import StagedSearch.Text.Digits

namespace StagedSearch

abbrev Reading := StateT (List Char) Option

namespace Reading

def refuse {α : Type} : Reading α := fun _ => none

/-- The next character, which stays where it is. -/
def peek? : Reading (Option Char) := fun text => some (text.head?, text)

def skip : Reading Unit := fun text => some ((), text.drop 1)

def takeWhile (isOf : Char → Bool) : Reading (List Char) := fun text =>
  some (text.takeWhile isOf, text.dropWhile isOf)

def skipWhile (isOf : Char → Bool) : Reading Unit := fun text =>
  some ((), text.dropWhile isOf)

def startsWith (start : String) : Reading Bool := fun text =>
  some (start.toList.isPrefixOf text, text)

/-- Passes over some characters, if the text goes on with them. -/
def accept (start : String) : Reading Bool := fun text =>
  if start.toList.isPrefixOf text then some (true, text.drop start.length)
  else some (false, text)

/-- Passes over some characters, with which the text has to go on. -/
def expect (start : String) : Reading Unit := do
  if !(← accept start) then refuse

def atEnd : Reading Bool := fun text => some (text.isEmpty, text)

def ofFunction {α : Type} (f : List Char → Option (α × List Char)) : Reading α := f

end Reading

end StagedSearch
