import OperatorGen.Json.Fault
import OperatorGen.Number.Decimal
import OperatorGen.Number.Shortest

/-!
# JSON numbers

The grammar of a number (`Numeral.scan`), and the number that a numeral denotes
(`Numeral.number`). A whole number that fits 64 bits stays a whole number; any other
becomes a double. That double is found in two rounded steps: the digits are gathered into
a significand of 64 bits, and the significand is multiplied or divided by a power of ten.
-/
namespace OperatorGen.Json

/-- A JSON number: a whole number of 64 bits, or a finite double. -/
inductive Number where
  | integer (value : Int)
  | real (negative : Bool) (units : Nat)
  deriving DecidableEq, Repr, Inhabited

def Number.text : Number → String
  | .integer value => toString value
  | .real negative units => Binary64.finiteText negative units

/-! ## Grammar -/

/-- The parts of a number as written. The fraction is empty if there is no point. -/
structure Numeral where
  negative : Bool
  whole : List Char
  fraction : List Char
  exponent : Option (Bool × List Char)
  deriving DecidableEq, Repr, Inhabited

/-- Why characters that begin like a number are none: the text ends too early, or another
    character stands where a digit must. -/
inductive NumeralFault where
  | endOfText
  | malformed
  deriving DecidableEq, Repr, Inhabited

namespace Numeral

/-- The fault of a text in which a digit is missing, by what stands there instead. -/
def missingDigit : List Char → NumeralFault
  | [] => .endOfText
  | _ => .malformed

/-- At least one digit, and the rest. -/
def scanDigits (chars : List Char) : Except NumeralFault (List Char × List Char) :=
  let (digits, rest) := chars.span Char.isDigit
  if digits.isEmpty then .error (missingDigit rest) else .ok (digits, rest)

/-- The whole part: a zero that no digit follows, or digits that begin with another. -/
def scanWhole (chars : List Char) : Except NumeralFault (List Char × List Char) := do
  let (digits, rest) ← scanDigits chars
  if digits.head? = some '0' ∧ digits.length ≠ 1 then .error .malformed
  else .ok (digits, rest)

/-- The digits after a point; none if there is no point. -/
def scanFraction : List Char → Except NumeralFault (List Char × List Char)
  | '.' :: rest => scanDigits rest
  | rest => .ok ([], rest)

/-- The exponent, if there is one: whether it is negative, and its digits. -/
def scanExponent :
    List Char → Except NumeralFault (Option (Bool × List Char) × List Char)
  | [] => .ok (none, [])
  | mark :: rest =>
    if mark = 'e' ∨ mark = 'E' then do
      let (negative, rest) := Literal.splitSign rest
      let (digits, rest) ← scanDigits rest
      .ok (some (negative, digits), rest)
    else .ok (none, mark :: rest)

/-- The sign at the front of a number, which can only be a minus. -/
def splitMinus : List Char → Bool × List Char
  | '-' :: rest => (true, rest)
  | rest => (false, rest)

/-- The longest numeral at the front of a text, and the rest. -/
def scan (chars : List Char) : Except NumeralFault (Numeral × List Char) := do
  let (negative, rest) := splitMinus chars
  let (whole, rest) ← scanWhole rest
  let (fraction, rest) ← scanFraction rest
  let (exponent, rest) ← scanExponent rest
  .ok (⟨negative, whole, fraction, exponent⟩, rest)

/-! ## Value -/

/-- Appends digits to a significand as long as it stays below 2^64, and gives back the
    digits that do not fit. -/
def gather (significand : Nat) : List Char → Nat × List Char
  | [] => (significand, [])
  | c :: rest =>
    let longer := 10 * significand + Decimal.digitValue c
    if longer < UInt64.size then gather longer rest else (significand, c :: rest)

/-- The double nearest to a power of ten, in units. -/
def powerOfTen (exponent : Nat) : Nat :=
  Binary64.nearestUnits (Nat.pow 10 exponent * Binary64.unitsPerOne) 1

/-- A double divided by another, in units. -/
def divide (units divisor : Nat) : Nat :=
  Binary64.nearestUnits (units * Binary64.unitsPerOne) divisor

/-- A double scaled by a power of ten. The largest power that a double holds is 10^308, so
    smaller exponents divide by it repeatedly; after two such steps nothing is left of a
    significand, so three are enough. -/
def scale : (steps : Nat) → (units : Nat) → (exponent : Int) → Except Fault Nat
  | 0, _, _ => .ok 0
  | steps + 1, units, exponent =>
    if units = 0 then .ok 0
    else if 308 < exponent then .error .numberOutOfRange
    else if exponent < -308 then scale steps (divide units (powerOfTen 308)) (exponent + 308)
    else if exponent < 0 then .ok (divide units (powerOfTen (-exponent).toNat))
    else
      let product := Binary64.nearestUnits (units * powerOfTen exponent.toNat) Binary64.unitsPerOne
      if product < Binary64.overflowUnits then .ok product else .error .numberOutOfRange

/-- The magnitude of a significand times a power of ten, in units. -/
def magnitude (significand : Nat) (exponent : Int) : Except Fault Nat :=
  scale 3 (Binary64.nearestUnits (significand * Binary64.unitsPerOne) 1) exponent

def exponentValue : Option (Bool × List Char) → Int
  | none => 0
  | some (negative, digits) => Binary64.signed negative (Decimal.ofDigits digits)

/-- Whether a numeral has neither a point nor an exponent. -/
def isWhole (n : Numeral) : Bool :=
  n.fraction.isEmpty && n.exponent.isNone

/-- The double that a numeral denotes. -/
def real (n : Numeral) : Except Fault Number := do
  let (significand, left) := gather 0 n.whole
  let (significand, unread) := gather significand n.fraction
  let used := n.fraction.length - unread.length
  let units ← magnitude significand (left.length - used + exponentValue n.exponent)
  .ok (.real n.negative units)

/-- The number that a numeral denotes. A negative zero is a double, and so is a whole
    number outside the 64 bits. -/
def number (n : Numeral) : Except Fault Number :=
  let value := Decimal.ofDigits n.whole
  if n.isWhole && !n.negative && value < UInt64.size then .ok (.integer value)
  else if n.isWhole && n.negative && value ≠ 0 && value ≤ UInt64.size / 2 then
    .ok (.integer (-value))
  else n.real

end Numeral
end OperatorGen.Json
