/-
# TOML documents

A document is a tree of tables. A line puts a value under a key, or a header opens a table
that the following lines belong to. Keys may have several parts, and every part but the
last names a table. Nothing may be defined twice: a table that was opened by a header, or
that stands in braces, is not extended by keys of several parts. Such a key may pass through
a table that merely lies on the way to another one, but puts values only into tables that
keys of several parts have made; and only a table that merely lies on the way to another one
may still be opened. Keys have fewer than eighty parts, and values are nested less than eighty
times.
-/

import StagedSearch.Options.Toml.Scalar

namespace StagedSearch

namespace Toml

/-- How a table came into being. -/
inductive Origin where
  /-- a header opened it -/
  | header
  /-- it lies on the way to a table that a header opened -/
  | implied
  /-- it lies on the way to a value with a key of several parts -/
  | dotted
deriving DecidableEq, Inhabited

/-- What stands under a key: a value, a table, or a list of tables, the latest first. -/
inductive Entry where
  | value (value : Value)
  | table (origin : Origin) (entries : List (String × Entry))
  | tables (elements : List (List (String × Entry)))
deriving Inhabited

abbrev Table := List (String × Entry)

namespace Table

/-- Puts an entry in the place of the one with its key, or behind all others. -/
def put (key : String) (entry : Entry) : Table → Table
  | [] => [(key, entry)]
  | (k, e) :: rest => if k = key then (key, entry) :: rest else (k, e) :: put key entry rest

/-- Puts a value under a key of several parts. `extendable` says whether the table may take
values in. -/
def insertBelow (value : Value) (extendable : Bool) : List String → Table → Option Table
  | [], _ => none
  | [key], t =>
    if extendable && (t.lookup key).isNone then some (t.put key (.value value)) else none
  | key :: path, t =>
    match t.lookup key with
    | none => (insertBelow value true path []).map fun inner => t.put key (.table .dotted inner)
    | some (.table .header _) => none
    | some (.table .implied inner) =>
      (insertBelow value false path inner).map fun inner => t.put key (.table .implied inner)
    | some (.table .dotted inner) =>
      (insertBelow value true path inner).map fun inner => t.put key (.table .dotted inner)
    | some (.tables (latest :: earlier)) =>
      (insertBelow value false path latest).map fun latest =>
        t.put key (.tables (latest :: earlier))
    | some _ => none

/-- Puts a value under a key of an open table. -/
def insert (value : Value) (path : List String) (t : Table) : Option Table :=
  t.insertBelow value true path

/-- Changes the table at the end of a path, and makes the tables on the way to it. In a
list of tables the way goes through the latest one. -/
def update (change : Table → Option Table) : List String → Table → Option Table
  | [], t => change t
  | key :: path, t =>
    match t.lookup key with
    | none => (update change path []).map fun inner => t.put key (.table .implied inner)
    | some (.table origin inner) =>
      (update change path inner).map fun inner => t.put key (.table origin inner)
    | some (.tables (latest :: earlier)) =>
      (update change path latest).map fun latest => t.put key (.tables (latest :: earlier))
    | some _ => none

def openTable (key : String) (t : Table) : Option Table :=
  match t.lookup key with
  | none => some (t.put key (.table .header []))
  | some (.table .implied inner) => some (t.put key (.table .header inner))
  | some _ => none

def openElement (key : String) (t : Table) : Option Table :=
  match t.lookup key with
  | none => some (t.put key (.tables [[]]))
  | some (.tables elements) => some (t.put key (.tables ([] :: elements)))
  | some _ => none

end Table

/-- Characters of keys without quotes. -/
def isKeyChar (c : Char) : Bool := c.isAlphanum || c = '_' || c = '-'

def blanks : Reading Unit := Reading.skipWhile isBlank

def comment : Reading Unit := do
  if ← Reading.accept "#" then Reading.skipWhile isPlain

def newline : Reading Bool := do
  if ← Reading.accept "\n" then return true
  Reading.accept "\r\n"

/-- Passes over what may stand behind the content of a line, and its end. -/
def endOfLine : Reading Unit := do
  blanks
  comment
  if !(← newline) then
    if !(← Reading.atEnd) then Reading.refuse

/-- Passes over blanks, comments and line ends. The argument counts down the lines. -/
def blankLines : Nat → Reading Unit
  | 0 => pure ()
  | count + 1 => do
    blanks
    comment
    if ← newline then blankLines count

def keyPart : Reading String := do
  if ← Reading.accept "\"" then return String.ofList (← Reading.ofFunction basicString)
  if ← Reading.accept "'" then return String.ofList (← Reading.ofFunction literalString)
  let chars ← Reading.takeWhile isKeyChar
  if chars.isEmpty then Reading.refuse else return String.ofList chars

/-- The number of parts that a key does not reach, and of brackets around a value. -/
def depthBound : Nat := 80

/-- Reads a key. The argument counts down its parts. -/
def keyParts : Nat → Reading (List String)
  | 0 => Reading.refuse
  | count + 1 => do
    let part ← keyPart
    blanks
    if ← Reading.accept "." then
      blanks
      return part :: (← keyParts count)
    else return [part]

def key : Reading (List String) := keyParts (depthBound - 1)

mutual

/-- Reads a value inside of `depth` brackets. The first argument counts down the nesting and
the elements. -/
def value : Nat → Nat → Reading Value
  | 0, _ => Reading.refuse
  | count + 1, depth => do
    match ← Reading.peek? with
    | some '[' =>
      Reading.skip
      if depthBound ≤ depth + 1 then Reading.refuse
      elements count (depth + 1)
      return .other
    | some '\x7b' =>
      Reading.skip
      if depthBound ≤ depth + 1 then Reading.refuse
      blanks
      if !(← Reading.accept "\x7d") then discard (members count (depth + 1) [])
      return .other
    | some '"' =>
      string
      return .other
    | some '\x27' =>
      string
      return .other
    | _ => word

def elements : Nat → Nat → Reading Unit
  | 0, _ => Reading.refuse
  | count + 1, depth => do
    blankLines count
    if ← Reading.accept "]" then return ()
    discard (value count depth)
    blankLines count
    if ← Reading.accept "," then elements count depth else Reading.expect "]"

def members : Nat → Nat → Table → Reading Table
  | 0, _, _ => Reading.refuse
  | count + 1, depth, t => do
    blanks
    let path ← key
    Reading.expect "="
    blanks
    let v ← value count depth
    blanks
    match t.insert v path with
    | none => Reading.refuse
    | some t =>
      if ← Reading.accept "," then members count depth t
      else
        Reading.expect "\x7d"
        return t

end

/-- A document that is being read: its root, and the path of the open table. -/
structure Draft where
  root : Table
  path : List String
deriving Inhabited

def header (d : Draft) : Reading Draft := do
  let isElement ← Reading.accept "["
  blanks
  let path ← key
  Reading.expect (if isElement then "]]" else "]")
  let last := path.getLast?.getD ""
  let change := if isElement then Table.openElement last else Table.openTable last
  match d.root.update change path.dropLast with
  | none => Reading.refuse
  | some root => return ⟨root, path⟩

def pair (count : Nat) (d : Draft) : Reading Draft := do
  let path ← key
  Reading.expect "="
  blanks
  let v ← value count 0
  match d.root.update (fun t => t.insert v path) d.path with
  | none => Reading.refuse
  | some root => return { d with root }

/-- Reads the lines of a document. The first argument counts down lines and everything
inside them. -/
def lines : Nat → Draft → Reading Table
  | 0, _ => Reading.refuse
  | count + 1, d => do
    blanks
    if ← Reading.atEnd then return d.root
    match ← Reading.peek? with
    | some '#' =>
      endOfLine
      lines count d
    | some '\n' =>
      endOfLine
      lines count d
    | some '\r' =>
      endOfLine
      lines count d
    | some '[' =>
      Reading.skip
      let d ← header d
      endOfLine
      lines count d
    | _ =>
      let d ← pair count d
      endOfLine
      lines count d

/-- The root table of a text, if the text is a document. A mark of the byte order may stand
in front. -/
def document? (text : String) : Option Table :=
  let chars := text.toList
  let chars := if chars.head? = some '\ufeff' then chars.drop 1 else chars
  ((lines (2 * chars.length + 4) ⟨[], []⟩).run chars).map Prod.fst

end Toml

end StagedSearch
