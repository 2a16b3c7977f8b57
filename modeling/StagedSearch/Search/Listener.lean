/-
# The solution listener

The listener numbers the accepted solutions, hands each of them to its channels, and says
whether the search goes on: it stops at the limit of solutions, and when a report fails.
-/

import StagedSearch.Search.Outcome

namespace StagedSearch

/-- A receiver of solutions that is told of each one while the store still holds it. A
report may fail, and it may change the reporter either way. -/
class Reporter (ρ : Type) where
  report : ρ → Store → Solution → Option OutputFault × ρ

inductive NoReporter

instance : Reporter NoReporter where
  report reporter _ _ := nomatch reporter

/-- A stream of solutions to somebody who may have stopped listening. -/
structure Channel where
  isOpen : Bool
  sent : Array Solution
deriving DecidableEq, Inhabited

namespace Channel

/-- A stream with a receiver and nothing sent yet. -/
def opened : Channel := ⟨true, #[]⟩

def closed : Channel := ⟨false, #[]⟩

/-- Sends a solution. Without a receiver it is lost, which is no failure. -/
def send (c : Channel) (solution : Solution) : Channel :=
  if c.isOpen then { c with sent := c.sent.push solution } else c

end Channel

/-- Numbers solutions, hands them on and decides when enough were found. -/
structure Listener (ρ : Type) where
  limit : Option Nat
  count : Nat
  limitReached : Bool
  /-- the variable whose value is recorded with each solution -/
  cost : Option VarId
  /-- whether all solutions are kept, and not only the last one -/
  retain : Bool
  kept : Array Solution
  last : Option Solution
  reporter : Option ρ
  channel : Option Channel
  /-- the latest failure of the reporter, until somebody takes it -/
  fault : Option OutputFault

namespace Listener

variable {ρ : Type}

/-- A listener that stops after `limit` solutions, or never. -/
def all (limit : Option Nat) : Listener ρ :=
  ⟨limit, 0, false, none, false, #[], none, none, none, none⟩

def first : Listener ρ := all (some 1)

def bestCost (l : Listener ρ) : Option Int := l.last.bind Solution.cost

/-- The solution that the store holds, numbered and with its cost. -/
def nextSolution (l : Listener ρ) (s : Store) : Solution :=
  Solution.capture s (l.count + 1) (((l.cost.bind s.value?).bind Value.asInt?))

/-- Tells the reporter, if there is one, and remembers its failure. -/
def tell [Reporter ρ] (l : Listener ρ) (s : Store) (solution : Solution) : Listener ρ :=
  match l.reporter with
  | none => l
  | some reporter =>
    let (fault, reporter) := Reporter.report reporter s solution
    { l with reporter := some reporter, fault := fault.or l.fault }

/-- Accepts what the store holds as a solution, and says whether the search goes on. -/
def accept [Reporter ρ] (l : Listener ρ) (s : Store) : Bool × Listener ρ :=
  let solution := l.nextSolution s
  let count := l.count + 1
  let limitReached :=
    match l.limit with
    | some limit => decide (limit ≤ count)
    | none => false
  let told := { l with count, limitReached }.tell s solution
  let l :=
    { told with
      channel := told.channel.map (·.send solution)
      kept := if told.retain then told.kept.push solution else told.kept
      last := some solution }
  (!limitReached && l.fault.isNone, l)

def takeFault (l : Listener ρ) : Option OutputFault × Listener ρ :=
  (l.fault, { l with fault := none })

def describeOption (text : Option String) : String :=
  match text with
  | some text => s!"Some({text})"
  | none => "None"

def describe (l : Listener ρ) : String :=
  "SolutionListener \x7b limit: " ++ describeOption (l.limit.map toString)
    ++ s!", count: {l.count}, limit_reached: {l.limitReached}, cost: "
    ++ describeOption (l.cost.map fun var => s!"VarId({var.index})")
    ++ s!", has_reporter: {l.reporter.isSome}, has_sender: {l.channel.isSome} \x7d"

end Listener

end StagedSearch
