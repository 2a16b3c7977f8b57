/-
# Bounded whole numbers

Values of a model are mathematical integers kept inside the signed 64-bit range, and
sizes are natural numbers kept inside the unsigned 64-bit range. Arithmetic is exact;
a result that leaves the signed range is either refused (`Signed64.checked`) or moved
to the nearest end (`Signed64.clamp`), and a size that leaves the unsigned range is
replaced by the greatest one (`Unsigned64.saturate`). Each rule is chosen by its user.
-/

namespace StagedSearch

namespace Signed64

def least : Int := -9223372036854775808

def greatest : Int := 9223372036854775807

def InRange (value : Int) : Prop := least ≤ value ∧ value ≤ greatest

instance : DecidablePred InRange := fun value =>
  inferInstanceAs (Decidable (least ≤ value ∧ value ≤ greatest))

/-- An exact result, provided that it lies in the range. -/
def checked (value : Int) : Option Int :=
  if InRange value then some value else none

/-- The value of the range that is nearest to an exact result. -/
def clamp (value : Int) : Int := max least (min greatest value)

/-- The midpoint of two bounds, rounded towards the smaller one. It never leaves the
range that the bounds span. -/
def midpoint (low high : Int) : Int := (low + high) / 2

theorem midpoint_eq_fdiv (low high : Int) : midpoint low high = (low + high).fdiv 2 := by
  rw [midpoint, Int.fdiv_eq_ediv_of_nonneg _ (by decide)]

theorem checked_eq_some_iff {value result : Int} :
    checked value = some result ↔ InRange value ∧ value = result := by
  unfold checked
  split <;> simp_all

theorem checked_eq_none_iff {value : Int} : checked value = none ↔ ¬ InRange value := by
  unfold checked
  split <;> simp_all

theorem clamp_of_inRange {value : Int} (inside : InRange value) : clamp value = value := by
  unfold InRange at inside
  unfold clamp
  omega

end Signed64

namespace Unsigned32

/-- How many numbers of 32 bits there are. -/
def modulus : Nat := 4294967296

end Unsigned32

namespace Unsigned64

/-- How many numbers of 64 bits there are. -/
def modulus : Nat := 18446744073709551616

/-- The greatest size that can be reported. -/
def greatest : Nat := 18446744073709551615

/-- A size as it is reported: exact up to the greatest one, which stands for all above. -/
def saturate (size : Nat) : Nat := min size greatest

theorem saturate_of_le {size : Nat} (fits : size ≤ greatest) : saturate size = size :=
  Nat.min_eq_left fits

end Unsigned64

end StagedSearch
