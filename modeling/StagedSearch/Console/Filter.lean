/-
# Console filters

A filter is a list of directives separated by commas. A directive has up to three parts, in
this order: the beginning of a topic, brackets with the name of a span and of fields, and an
equals sign with a level. `search[{cost}]=debug` shows the events of topics that begin with
`search` and have a field `cost`, up to the level of debugging. A word alone is a level if it
can be one, and else the beginning of a topic.

The most specific directive that applies to an event decides: the one with the longest
topic, and of these the one with the most fields. What no directive applies to is hidden, so
a filter without directives hides everything; nothing between two commas is no directive. A
text with a directive that cannot be read is no filter at all.
-/

import StagedSearch.Console.Record
import StagedSearch.Pattern.Reader
import StagedSearch.Pattern.Support
import StagedSearch.Text.Bytes
import StagedSearch.Text.Numeral

namespace StagedSearch

/-- Events whose topic begins with `topic` and that have all of `fields` are shown up to a
level, or not at all. A rule that is `confined` asks for a span around the event, or for the
value of a field of a span. -/
structure FilterRule where
  topic : String
  fields : List String
  confined : Bool
  level : Option Level
deriving DecidableEq, Inhabited

abbrev Filter := List FilterRule

namespace Filter

/-- The value of a number that may have a plus sign. -/
def number? (word : List Char) : Option Nat :=
  let digits := if word.head? = some '+' then word.drop 1 else word
  if digits.isEmpty then none else Text.digits? 10 digits

def named? (word : String) : Option (Option Level) :=
  match word.toLower with
  | "off" => some none
  | "error" => some (some .error)
  | "warn" => some (some .warn)
  | "info" => some (some .info)
  | "debug" => some (some .debug)
  | "trace" => some (some .trace)
  | _ => none

/-- The level of a word: a name, or a number up to five. Zero shows nothing. -/
def level? (word : List Char) : Option (Option Level) :=
  match number? word with
  | none => named? (String.ofList word)
  | some 0 => some none
  | some 1 => some (some .error)
  | some 2 => some (some .warn)
  | some 3 => some (some .info)
  | some 4 => some (some .debug)
  | some 5 => some (some .trace)
  | some _ => none

/-- A directive that is being read. The bytes in front of its places are counted from the
first character that is no space, but its words are cut out of the whole text, so spaces in
front of a directive move its words. -/
structure Directive where
  whole : List Char
  trimmed : List Char
deriving DecidableEq, Inhabited

namespace Directive

/-- Spaces at both ends do not count as places. -/
def ofText (text : List Char) : Directive :=
  ⟨text, ((text.dropWhile Text.isSpace).reverse.dropWhile Text.isSpace).reverse⟩

def offset (d : Directive) (place : Nat) : Nat := Text.byteCount (d.trimmed.take place)

def behind (d : Directive) (place : Nat) : List Char := Text.dropBytes (d.offset place) d.whole

def word (d : Directive) (start stop : Nat) : String :=
  String.ofList (Text.takeBytes (d.offset stop - d.offset start) (d.behind start))

def char? (d : Directive) (place : Nat) : Option Char := d.trimmed[place]?

/-- The first place from `start` on that holds one of some characters, or else the end. -/
def find (d : Directive) (start : Nat) (chars : List Char) : Nat :=
  start + ((d.trimmed.drop start).takeWhile (!chars.contains ·)).length

/-- The level behind an equals sign. Where none is given everything is shown. -/
def levelAt? (d : Directive) (place : Nat) : Option (Option Level) :=
  match d.behind place with
  | [] => some (some .trace)
  | word => level? word

def afterBrackets? (d : Directive) (rule : FilterRule) (place : Nat) : Option FilterRule :=
  match d.char? place with
  | none => some rule
  | some '=' => (d.levelAt? (place + 1)).map fun level => { rule with level }
  | some _ => none

/-- Whether a field can be asked for a value: a truth value, a number, or a pattern that can
be matched. The names of truth values are patterns. -/
def isFieldValue (value : List Char) : Bool :=
  Text.isNumeral value || (Pattern.ofChars? value).any Pattern.isSupported

/-- Reads a field in braces, and the bracket behind it. A field with a value, behind an
equals sign, confines the rule; from another equals sign on its text has no meaning. -/
def field? (d : Directive) (rule : FilterRule) (place : Nat) : Option FilterRule :=
  let stop := d.find place ['\x7d']
  let field := d.word place stop
  if d.char? stop = some '\x7d' ∧ field ≠ "" ∧ d.char? (stop + 1) = some ']' then
    match field.splitOn "=" with
    | _ :: value :: _ =>
      if isFieldValue value.toList then
        d.afterBrackets? { rule with confined := true } (stop + 2)
      else none
    | _ => d.afterBrackets? { rule with fields := [field] } (stop + 2)
  else none

def brackets? (d : Directive) (rule : FilterRule) (place : Nat) : Option FilterRule :=
  let stop := d.find place [']', '\x7b']
  match d.char? stop with
  | some ']' => d.afterBrackets? { rule with confined := true } (stop + 1)
  | some '\x7b' => d.field? { rule with confined := d.word place stop ≠ "" } (stop + 1)
  | _ => none

def opensTopic (c : Char) : Bool :=
  Text.isAlphanumeric c || c = '_' || c = ':' || c = '-'

def rule? (d : Directive) : Option FilterRule :=
  let everything : FilterRule := ⟨"", [], false, some .trace⟩
  match d.char? 0 with
  | none => none
  | some '[' => d.brackets? everything 1
  | some c =>
    if opensTopic c then
      let stop := d.find 0 ['=', '[']
      let rule := { everything with topic := d.word 0 stop }
      match d.char? stop with
      | some '=' => d.afterBrackets? rule stop
      | some _ => d.brackets? rule (stop + 1)
      | none =>
        match level? d.whole with
        | some level => some { everything with level }
        | none => some { everything with topic := String.ofList d.whole }
    else none

end Directive

def default : Filter := [⟨"labelforge_search", [], false, some .info⟩]

/-- The rules of a text. Where a text cannot be read it is as if it had not been given. -/
def ofString (text : String) : Filter :=
  let parts := (text.splitOn ",").filter (· ≠ "")
  (parts.mapM fun part => (Directive.ofText part.toList).rule?).getD default

/-- The names of the fields of an event. Decisions and incumbents name their stage, too. -/
def fieldNames (event : SearchEvent) : List String :=
  let shown := event.fields.map Prod.fst
  match event with
  | .incumbentSet .. => "node" :: shown
  | .decisionTaken .. => "node" :: shown
  | _ => shown

/-- Whether a rule applies to an event. No event stands in a span. -/
def appliesTo (rule : FilterRule) (event : SearchEvent) : Bool :=
  !rule.confined && event.topic.startsWith rule.topic &&
    rule.fields.all (fieldNames event).contains

def inOrder : List Char → List Char → Bool
  | [], _ => true
  | _ :: _, [] => false
  | c :: cs, d :: ds => decide (c.toNat < d.toNat) || (c = d && inOrder cs ds)

/-- Whether a later rule decides before an earlier one, where both apply. -/
def overrides (earlier later : FilterRule) : Bool :=
  let fieldOf (rule : FilterRule) : List Char := (rule.fields.headD "").toList
  decide (earlier.topic.length < later.topic.length) ||
    (earlier.topic.length = later.topic.length && inOrder (fieldOf earlier) (fieldOf later))

def ruleFor? (filter : Filter) (event : SearchEvent) : Option FilterRule :=
  (filter.filter (appliesTo · event)).foldl
    (fun best rule =>
      match best with
      | none => some rule
      | some earlier => if overrides earlier rule then some rule else best)
    none

def shows (filter : Filter) (event : SearchEvent) : Bool :=
  match filter.ruleFor? event with
  | some rule => rule.level.any fun level => decide (event.level.rank ≤ level.rank)
  | none => false

end Filter

end StagedSearch
