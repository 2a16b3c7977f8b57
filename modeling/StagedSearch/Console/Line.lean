/-
# Console lines

The console shows some events as coloured lines. A line starts with a stamp of the time,
which whoever writes the line supplies. Events of other topics, events without a line, and
decisions below the finest level of detail show nothing.
-/

import StagedSearch.Console.Record
import StagedSearch.Console.Style
import StagedSearch.Number.Decimal

namespace StagedSearch

namespace Console

def banner : String :=
  Colour.brightCyan.paintBold "LabelForge" ++ " " ++
    Colour.brightWhite.paint "v0.3.0 - depth-first labeling"

def listensTo (topic : String) : Bool :=
  topic.startsWith "labelforge_search" || topic == "labelforge" ||
    topic.startsWith "labelforge::"

/-- A number of milliseconds: below a second as it is, below a minute in seconds with two
places, and else in whole minutes and seconds. -/
def renderDuration (ms : Nat) : String :=
  if ms < 1000 then s!"{ms}ms"
  else if ms < 60000 then Decimal.renderHundredths (Decimal.hundredths ms 1000) ++ "s"
  else s!"{ms / 60000}m {ms % 60000 / 1000}s"

/-- A count in a colour, nothing counting as zero. -/
def paintCount (colour : Colour) (n : Option Nat) : String :=
  colour.paint (Decimal.grouped (n.getD 0))

def solveStarted (r : Readout) : String :=
  Colour.brightGreen.paintBold "▶" ++ " Solving │ "
    ++ paintCount .brightYellow r.vars ++ " variables │ "
    ++ paintCount .brightYellow r.constraints ++ " constraints │ "
    ++ Colour.white.paintBold (r.goal.getD "Satisfy")
    ++ (if r.allSolutions = some true then " │ " ++ Colour.brightMagenta.paint "all solutions"
        else "")

def treeBuilt (r : Readout) : String :=
  Colour.brightBlue.paint "◆" ++ " Search tree │ "
    ++ paintCount .white r.nodes ++ " nodes │ "
    ++ paintCount .white r.vars ++ " variables │ "
    ++ (if r.complete.getD true then Colour.brightGreen.paint "complete"
        else Colour.yellow.paint "heuristic")

def nothingToDecide : String := Colour.brightBlue.paint "◆" ++ " Nothing to label"

/-- The text between the brackets of a cost that is there. -/
def costText? (shown : String) : Option String :=
  if shown.startsWith "Some(" ∧ shown.endsWith ")" then
    some (String.ofList ((shown.toList.drop 5).dropLast))
  else none

def solution (r : Readout) : String :=
  Colour.brightCyan.paint "⚡" ++ " Solution "
    ++ Colour.white.paint (Decimal.padLeft 8 (Decimal.grouped (r.number.getD 0)))
    ++ (match r.cost.bind costText? with
        | some cost => " │ cost " ++ Colour.brightMagenta.paintBold cost
        | none => "")

def incumbent (r : Readout) : String :=
  Colour.brightBlue.paint "↓" ++ " Bound tightened below "
    ++ Colour.brightYellow.paint (toString (r.bound.getD 0))

def decision (r : Readout) : String :=
  (if r.consistent.getD false then Colour.brightGreen.paint "✓" else Colour.brightRed.paint "✗")
    ++ " " ++ Colour.brightBlack.paint (r.choice.getD "?")

/-- A status in green where it settles the question, in red where it denies it. -/
def status (text : String) : String :=
  match text with
  | "Satisfied" => Colour.brightGreen.paintBold text
  | "Exhausted" => Colour.brightGreen.paintBold text
  | "Trivial" => Colour.brightGreen.paintBold text
  | "Unsatisfiable" => Colour.brightRed.paintBold text
  | _ => Colour.yellow.paintBold text

def solveEnded (r : Readout) : String :=
  Colour.brightCyan.paintBold "■" ++ " Search ended │ " ++ status (r.status.getD "Unknown")
    ++ " │ " ++ paintCount .brightYellow r.solutions ++ " solutions │ "
    ++ paintCount .white r.nodes ++ " nodes │ "
    ++ Colour.yellow.paint (renderDuration (r.timeMs.getD 0))

def failure (r : Readout) : String :=
  Colour.brightRed.paintBold "✗" ++ " " ++ Colour.brightRed.paint (r.message.getD "error")

def body? (level : Level) (r : Readout) : Option String :=
  match r.event.getD "" with
  | "solve_start" => some (solveStarted r)
  | "tree_built" => some (treeBuilt r)
  | "trivial_model" => some nothingToDecide
  | "solution" => some (solution r)
  | "incumbent" => some (incumbent r)
  | "decision" => if level = .trace then some (decision r) else none
  | "solve_end" => some (solveEnded r)
  | _ => if level = .error then some (failure r) else none

def line? (stamp : String) (record : Record) : Option String :=
  if listensTo record.topic then
    (body? record.level (Readout.ofRecord record)).map fun body => stamp ++ " " ++ body
  else none

def lines (stamp : String) (events : List SearchEvent) : List String :=
  events.filterMap fun event => line? stamp event.record

end Console

end StagedSearch
