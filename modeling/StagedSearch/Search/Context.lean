/-
# The context of a run

What building and running a search share besides the tree and the store: the clock and the
time limit, the generator of seeds, the objective, the listener, and the journal.
-/

import StagedSearch.Search.Clock
import StagedSearch.Search.Journal
import StagedSearch.Search.Listener

namespace StagedSearch

structure Objective where
  /-- the variable that the goal names -/
  cost : VarId
  /-- the variable that is minimized: the cost itself, or its negation -/
  bound : VarId
  /-- the value of the bound at the last accepted solution -/
  incumbent : Option Int
deriving DecidableEq, Inhabited

structure Context (ρ : Type) where
  clock : Clock
  /-- in nanoseconds -/
  timeLimit : Option Nat
  seeds : Generator
  objective : Option Objective
  listener : Listener ρ
  timedOut : Bool
  journal : Journal

namespace Context

variable {ρ : Type}

/-- A context with a listener: no time limit, a clock that stands still, and the generator
of seed zero. -/
def ofListener (listener : Listener ρ) : Context ρ :=
  ⟨Clock.still, none, Generator.ofSeed 0, none, listener, false, Journal.silent⟩

def readClock (c : Context ρ) : Nat × Context ρ :=
  let (time, clock) := c.clock.read
  (time, { c with clock })

/-- The end of the time limit, counted from now. Without a limit the clock is not read. The
sum is exact, and may be a time that cannot be told. -/
def deadline? (c : Context ρ) : Option Nat × Context ρ :=
  match c.timeLimit with
  | none => (none, c)
  | some limit =>
    let (time, c) := c.readClock
    (some (time + limit), c)

/-- The end of the time limit, if there is one, can be told. A sum of times that leaves their
range has no value, and what needs it breaks off. -/
def DeadlineFits (c : Context ρ) : Prop := ∀ deadline ∈ c.deadline?.1, deadline ≤ Clock.longest

instance (c : Context ρ) : Decidable c.DeadlineFits :=
  inferInstanceAs (Decidable (∀ deadline ∈ c.deadline?.1, deadline ≤ Clock.longest))

theorem deadlineFits_iff {c : Context ρ} : c.DeadlineFits ↔
    ∀ limit, c.timeLimit = some limit → c.clock.read.1 + limit ≤ Clock.longest := by
  unfold DeadlineFits deadline?
  cases c.timeLimit with
  | none => simp
  | some limit => simp [readClock]

def nextSeed (c : Context ρ) : UInt64 × Context ρ :=
  let (seed, seeds) := c.seeds.nextNumber
  (seed, { c with seeds })

def incumbent? (c : Context ρ) : Option Int := c.objective.bind Objective.incumbent

/-- Records the bound of an accepted solution, if there is an objective. -/
def setIncumbent (c : Context ρ) (value : Int) : Context ρ :=
  { c with objective := c.objective.map fun o => { o with incumbent := some value } }

def note (c : Context ρ) (event : SearchEvent) : Context ρ :=
  { c with journal := c.journal.note event }

/-- Hands the solution in the store to the listener, which says whether to go on. -/
def accept [Reporter ρ] (c : Context ρ) (s : Store) : Bool × Context ρ :=
  let solution := c.listener.nextSolution s
  let c := c.note (.solutionAccepted solution.number solution.cost)
  let (goOn, listener) := c.listener.accept s
  (goOn, { c with listener })

end Context

end StagedSearch
