/-
# The journal of a search

A search notes what happens to it. Every event has a level of detail and a topic, the part
of the program that notes it; a journal keeps the events up to its own level of detail.
-/

import StagedSearch.Directive.Error
import StagedSearch.Search.Outcome

namespace StagedSearch

/-- Levels of detail, from the gravest events to the smallest. -/
inductive Level where
  | error
  | warn
  | info
  | debug
  | trace
deriving DecidableEq, Inhabited

def Level.rank : Level → Nat
  | .error => 0
  | .warn => 1
  | .info => 2
  | .debug => 3
  | .trace => 4

inductive SearchEvent where
  | solveStarted (vars constraints : Nat) (goal : Goal) (allSolutions : Bool)
  | treeBuilt (nodes vars : Nat) (complete : Bool)
  | nothingToDecide
  | solutionAccepted (number : Nat) (cost : Option Int)
  | incumbentSet (bound : Int)
  | decisionTaken (choice : Choice) (consistent : Bool)
  | solveEnded (status : SearchStatus) (solutions nodes milliseconds : Nat)
  | failed (error : SolveError)
deriving DecidableEq, Inhabited

namespace SearchEvent

def level : SearchEvent → Level
  | solveStarted .. => .info
  | treeBuilt .. => .info
  | nothingToDecide => .info
  | solutionAccepted .. => .debug
  | incumbentSet .. => .debug
  | decisionTaken .. => .trace
  | solveEnded .. => .info
  | failed .. => .error

/-- The part of the program that notes an event. -/
def topic : SearchEvent → String
  | solveStarted .. => "labelforge_search::solve"
  | treeBuilt .. => "labelforge_search::tree::builder"
  | nothingToDecide => "labelforge_search::tree::builder"
  | solutionAccepted .. => "labelforge_search::listener"
  | incumbentSet .. => "labelforge_search::engine"
  | decisionTaken .. => "labelforge_search::engine"
  | solveEnded .. => "labelforge_search::solve"
  | failed .. => "labelforge::solver"

end SearchEvent

/-- The events noted so far, the latest first. Without a level nothing is kept. -/
structure Journal where
  detail : Option Level
  entries : List SearchEvent
deriving DecidableEq, Inhabited

namespace Journal

def silent : Journal := ⟨none, []⟩

def ofLevel (level : Level) : Journal := ⟨some level, []⟩

/-- Notes an event, if the level of detail asks for it. -/
def note (j : Journal) (event : SearchEvent) : Journal :=
  match j.detail with
  | none => j
  | some level =>
    if event.level.rank ≤ level.rank then { j with entries := event :: j.entries } else j

/-- The events in the order in which they happened. -/
def events (j : Journal) : List SearchEvent := j.entries.reverse

end Journal

end StagedSearch
