/-
# Event records

An event reaches the console as a record: a level, a topic, and named fields of several
types. The console reads a fixed set of names, each from certain types only; a field of
another name or type is passed over, and of several fields for one name the last counts.
-/

import StagedSearch.Search.Journal
import StagedSearch.Text.Combining
import StagedSearch.Text.Printable

namespace StagedSearch

inductive FieldValue where
  | unsigned (value : Nat)
  | signed (value : Int)
  | flag (value : Bool)
  | text (value : String)
  /-- a value that was turned into a text -/
  | shown (value : String)
  /-- a text that was put in quotes -/
  | quoted (value : String)
deriving DecidableEq, Inhabited

/-- An event as the console receives it. -/
structure Record where
  level : Level
  topic : String
  fields : List (String × FieldValue)
deriving DecidableEq, Inhabited

/-- What the console has read from the fields of a record. -/
structure Readout where
  event : Option String
  message : Option String
  goal : Option String
  status : Option String
  cost : Option String
  choice : Option String
  vars : Option Nat
  constraints : Option Nat
  nodes : Option Nat
  solutions : Option Nat
  number : Option Nat
  timeMs : Option Nat
  bound : Option Int
  allSolutions : Option Bool
  complete : Option Bool
  consistent : Option Bool
deriving DecidableEq, Inhabited

namespace Readout

def blank : Readout :=
  ⟨none, none, none, none, none, none, none, none, none, none, none, none, none, none, none,
    none⟩

def trimQuotes (text : String) : String :=
  let rest := text.toList.dropWhile (· = '"')
  String.ofList (rest.reverse.dropWhile (· = '"')).reverse

/-- A character as it is written inside quotes. A character that is not printable, or that
would combine with the one in front of it, is written as its number. -/
def escape (c : Char) : List Char :=
  match c with
  | '"' => ['\\', '"']
  | '\\' => ['\\', '\\']
  | '\n' => ['\\', 'n']
  | '\r' => ['\\', 'r']
  | '\t' => ['\\', 't']
  | '\x00' => ['\\', '0']
  | c =>
    if Text.isPrintable c && !Text.isExtending c then [c]
    else "\\u\x7b".toList ++ Nat.toDigits 16 c.toNat ++ ['\x7d']

def quote (text : String) : String :=
  "\"" ++ String.ofList (text.toList.flatMap escape) ++ "\""

def readShown (r : Readout) (name shown : String) : Readout :=
  let text := some (trimQuotes shown)
  match name with
  | "event" => { r with event := text }
  | "message" => { r with message := text }
  | "goal" => { r with goal := text }
  | "status" => { r with status := text }
  | "cost" => { r with cost := text }
  | "choice" => { r with choice := text }
  | _ => r

/-- Reads a plain text. Costs and choices never come as plain texts. -/
def readText (r : Readout) (name value : String) : Readout :=
  match name with
  | "event" => { r with event := some value }
  | "message" => { r with message := some value }
  | "goal" => { r with goal := some value }
  | "status" => { r with status := some value }
  | _ => r

def readUnsigned (r : Readout) (name : String) (value : Nat) : Readout :=
  match name with
  | "variables" => { r with vars := some value }
  | "constraints" => { r with constraints := some value }
  | "nodes" => { r with nodes := some value }
  | "solutions" => { r with solutions := some value }
  | "number" => { r with number := some value }
  | "time_ms" => { r with timeMs := some value }
  | _ => r

/-- Reads a signed number. Where a count is expected its 64 bits are taken as a count. -/
def readSigned (r : Readout) (name : String) (value : Int) : Readout :=
  match name with
  | "bound" => { r with bound := some value }
  | _ => r.readUnsigned name (value % Unsigned64.modulus).toNat

def readFlag (r : Readout) (name : String) (value : Bool) : Readout :=
  match name with
  | "all_solutions" => { r with allSolutions := some value }
  | "complete" => { r with complete := some value }
  | "consistent" => { r with consistent := some value }
  | _ => r

def read (r : Readout) (name : String) : FieldValue → Readout
  | .unsigned value => r.readUnsigned name value
  | .signed value => r.readSigned name value
  | .flag value => r.readFlag name value
  | .text value => r.readText name value
  | .shown value => r.readShown name value
  | .quoted value => r.readShown name (quote value)

def ofRecord (record : Record) : Readout :=
  record.fields.foldl (fun r (name, value) => r.read name value) blank

end Readout

def renderCost : Option Int → String
  | some cost => s!"Some({cost})"
  | none => "None"

def SearchEvent.fields : SearchEvent → List (String × FieldValue)
  | solveStarted vars constraints goal allSolutions =>
    [("event", .text "solve_start"), ("variables", .unsigned vars),
      ("constraints", .unsigned constraints), ("goal", .shown goal.name),
      ("all_solutions", .flag allSolutions)]
  | treeBuilt nodes vars complete =>
    [("event", .text "tree_built"), ("nodes", .unsigned nodes),
      ("variables", .unsigned vars), ("complete", .flag complete)]
  | nothingToDecide => [("event", .text "trivial_model")]
  | solutionAccepted number cost =>
    [("event", .text "solution"), ("number", .unsigned number), ("cost", .shown (renderCost cost))]
  | incumbentSet bound => [("event", .text "incumbent"), ("bound", .signed bound)]
  | decisionTaken choice consistent =>
    [("event", .text "decision"), ("choice", .shown choice.render),
      ("consistent", .flag consistent)]
  | solveEnded status solutions nodes milliseconds =>
    [("event", .text "solve_end"), ("status", .shown status.name),
      ("solutions", .unsigned solutions), ("nodes", .unsigned nodes),
      ("time_ms", .unsigned (milliseconds % Unsigned64.modulus))]
  | failed error => [("message", .shown error.message)]

def SearchEvent.record (event : SearchEvent) : Record := ⟨event.level, event.topic, event.fields⟩

end StagedSearch
