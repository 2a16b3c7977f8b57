/-
# Solve options

What the caller asks of a solve. Limits that are not positive do not limit anything.
-/

namespace StagedSearch

structure SolveOptions where
  /-- report every solution, and not only the first one -/
  allSolutions : Bool
  /-- write a report at the end -/
  statistics : Bool
  solutionLimit : Int
  timeoutMs : Int
  /-- write about the model at the start -/
  verbose : Bool
  /-- the seed of random orders -/
  randomSeed : Option Nat
deriving DecidableEq, Inhabited

namespace SolveOptions

def default : SolveOptions := ⟨false, false, 0, 0, false, none⟩

def limit? (o : SolveOptions) : Option Nat :=
  if 0 < o.solutionLimit then some o.solutionLimit.toNat else none

/-- The time that a search may take, in milliseconds. -/
def timeLimitMs? (o : SolveOptions) : Option Nat :=
  if 0 < o.timeoutMs then some o.timeoutMs.toNat else none

/-- The time that a search may take, in nanoseconds. -/
def timeLimit? (o : SolveOptions) : Option Nat := o.timeLimitMs?.map (· * 1000000)

end SolveOptions

end StagedSearch
