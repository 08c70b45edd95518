/-!
# Double precision numbers

A finite double is a whole number of units of 2^-1074 with at most 53 significant bits, so
it is held as that number of units, and every operation is exact arithmetic on natural
numbers followed by one rounding (`nearestUnits`): to nearest, a tie to the even neighbour.
Comparison is comparison of integers.
-/
namespace OperatorGen

/-- A double: a sign and a number of units of 2^-1074, an infinity, or no number. -/
inductive Binary64 where
  | finite (negative : Bool) (units : Nat)
  | infinite (negative : Bool)
  | nan
  deriving DecidableEq, Repr, Inhabited

namespace Binary64

def unitsPerOne : Nat := Nat.pow 2 1074

/-- The least power of two beyond every finite double, in units. -/
def overflowUnits : Nat := Nat.pow 2 2098

/-! ## Rounding -/

/-- The whole number nearest to a quotient, the even one of two that are equally near. -/
def roundHalfEven (numerator denominator : Nat) : Nat :=
  let floor := numerator / denominator
  let twice := 2 * (numerator % denominator)
  if twice < denominator then floor
  else if denominator < twice then floor + 1
  else if floor % 2 = 0 then floor
  else floor + 1

/-- The distance between neighbouring doubles at a magnitude, in units: one while 53 bits
    hold the magnitude, and a power of two beyond. -/
def stepAt (units : Nat) : Nat :=
  Nat.pow 2 (units.log2 - 52)

/-- A quotient, which counts units, rounded to 53 significant bits. -/
def nearestUnits (numerator denominator : Nat) : Nat :=
  let step := stepAt (numerator / denominator)
  roundHalfEven numerator (denominator * step) * step

/-- The double nearest to a quotient of natural numbers with a sign; one that rounds beyond
    every finite double is infinite. -/
def ofRatio (negative : Bool) (numerator denominator : Nat) : Binary64 :=
  let units := nearestUnits (numerator * unitsPerOne) denominator
  if units < overflowUnits then .finite negative units else .infinite negative

/-! ## Order -/

def signed (negative : Bool) (magnitude : Nat) : Int :=
  if negative then -(magnitude : Int) else magnitude

/-- The place of a double among all doubles; the infinities stand at the ends, and what is
    no number has no place. Both zeros share one place. -/
def place : Binary64 → Option Int
  | .finite negative units => some (signed negative units)
  | .infinite negative => some (signed negative overflowUnits)
  | .nan => none

/-- Whether the first double is greater than the second. -/
def exceeds (a b : Binary64) : Bool :=
  match a.place, b.place with
  | some x, some y => y < x
  | _, _ => false

end Binary64
end OperatorGen
