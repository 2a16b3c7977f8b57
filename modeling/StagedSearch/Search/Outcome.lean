/-
# Outcomes and statistics

What a search comes to: how it ended, what it counted, its last solution, and the report
that can be written about it.
-/

import StagedSearch.Tree.Progress

namespace StagedSearch

structure Solution where
  /-- its position in the order of discovery, from 1 -/
  number : Nat
  /-- every decided variable with its value, in the order of declaration -/
  values : List (VarId × Value)
  /-- the value of the cost variable, if it is decided -/
  cost : Option Int
deriving DecidableEq, Inhabited

namespace Solution

def capture (s : Store) (number : Nat) (cost : Option Int) : Solution :=
  ⟨number, s.decidedValues, cost⟩

def value? (solution : Solution) (var : VarId) : Option Value := solution.values.lookup var

def int? (solution : Solution) (var : VarId) : Option Int :=
  (solution.value? var).bind Value.asInt?

end Solution

inductive SearchStatus where
  /-- There was nothing to decide. -/
  | trivial
  /-- It stopped at the first solution. -/
  | satisfied
  /-- It reported every solution, or the best one. -/
  | exhausted
  /-- It reported as many solutions as were asked for. -/
  | limitReached
  /-- It left candidates out, and found solutions. -/
  | incomplete
  /-- It left nothing out, and found no solution. -/
  | unsatisfiable
  /-- It left candidates out, and found no solution. -/
  | unknown
  /-- Its time was up. -/
  | timedOut
deriving DecidableEq, Inhabited

def SearchStatus.name : SearchStatus → String
  | .trivial => "Trivial"
  | .satisfied => "Satisfied"
  | .exhausted => "Exhausted"
  | .limitReached => "LimitReached"
  | .incomplete => "Incomplete"
  | .unsatisfiable => "Unsatisfiable"
  | .unknown => "Unknown"
  | .timedOut => "TimedOut"

/-- The counters of all nodes together. -/
abbrev SearchStatistics := Counters

namespace SearchStatistics

/-- Adds the counters of one more node: numbers add up, the greatest depth counts, and the
number of solutions is the one written last. -/
def add (total node : Counters) : SearchStatistics :=
  ⟨total.nodes + node.nodes, total.decisions + node.decisions,
    total.wrongDecisions + node.wrongDecisions, total.backtracks + node.backtracks,
    max total.maxDepth node.maxDepth,
    if 0 < node.solutions then node.solutions else total.solutions⟩

/-- The counters of all nodes of a tree, gathered in pre-order. -/
def aggregate (tree : SearchTree) (progress : Progress) : SearchStatistics :=
  (tree.preOrder.map progress.counters).foldl add Counters.zero

def ofTrivial : SearchStatistics := { Counters.zero with solutions := 1 }

end SearchStatistics

structure SolveReport where
  modelVariables : Nat
  modelConstraints : Nat
  /-- in nanoseconds -/
  searchTime : Nat
  statistics : SearchStatistics
deriving DecidableEq, Inhabited

/-- The report as a block of lines, after a blank one. Times are in whole milliseconds. -/
def SolveReport.render (r : SolveReport) : String :=
  s!"\n%% Model variables : {r.modelVariables}\n" ++
  s!"%% Model constraints : {r.modelConstraints}\n\n" ++
  s!"%% Search CPU time : {r.searchTime / 1000000}ms\n" ++
  s!"%% Search nodes : {r.statistics.nodes}\n" ++
  s!"%% Search decisions : {r.statistics.decisions}\n" ++
  s!"%% Wrong search decisions : {r.statistics.wrongDecisions}\n" ++
  s!"%% Search backtracks : {r.statistics.backtracks}\n" ++
  s!"%% Max search depth : {r.statistics.maxDepth}\n" ++
  s!"%% Number solutions : {r.statistics.solutions}"

structure SolveOutcome where
  status : SearchStatus
  found : Bool
  report : SolveReport
  /-- the last accepted solution, the best one when optimizing -/
  best : Option Solution
  /-- every accepted solution, if they were to be kept -/
  solutions : List Solution
deriving DecidableEq, Inhabited

end StagedSearch
