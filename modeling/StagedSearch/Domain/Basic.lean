/-
# Domains

The values that a variable may still take: integers for an integer or boolean variable,
sets for a set variable.
-/

import StagedSearch.Domain.IntDomain
import StagedSearch.Domain.SetDomain

namespace StagedSearch

inductive Domain where
  | int (domain : IntDomain)
  | set (domain : SetDomain)
deriving DecidableEq, Inhabited

namespace Domain

/-- The number of values as it is reported. -/
def size : Domain → Nat
  | .int d => d.size
  | .set d => d.size

def isSingleton : Domain → Bool
  | .int d => d.isSingleton
  | .set d => d.isSingleton

def asInt? : Domain → Option IntDomain
  | .int d => some d
  | .set _ => none

def asSet? : Domain → Option SetDomain
  | .int _ => none
  | .set d => some d

def render : Domain → String
  | .int d => d.render
  | .set d => d.render

/-- How far the domain can still shrink: its values, or its undecided elements. Every
change that keeps a domain within its former bounds lowers this number. -/
def weight : Domain → Nat
  | .int d => d.count
  | .set d => d.undecided.length

end Domain

end StagedSearch
