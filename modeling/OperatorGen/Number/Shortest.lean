import OperatorGen.Number.Binary64

/-!
# Shortest decimal text of a double

A finite double is written with the fewest digits that read back as it, and of those with
the digits nearest to it. `shortest` finds them by exact arithmetic: on the grid of numbers
with one digit, then two, up to seventeen, it tries the two neighbours of the double. The
layout of the text (`text`) is positional for exponents from -5 to 15 and scientific
otherwise.
-/
namespace OperatorGen.Binary64

/-! ## Digits -/

/-- The real numbers that round to a double, in quarters of a unit. -/
structure Interval where
  low : Nat
  high : Nat
  /-- The ends round to the double too: they are ties, and the double is even. -/
  closed : Bool
  deriving DecidableEq, Repr

/-- Whether `value / scale` lies in the interval. -/
def Interval.contains (interval : Interval) (value scale : Nat) : Bool :=
  if interval.closed then interval.low * scale ≤ value && value ≤ interval.high * scale
  else interval.low * scale < value && value < interval.high * scale

/-- The interval around a positive double reaches half a step to either side; below a power
    of two the step is half as wide. -/
def interval (units : Nat) : Interval :=
  let step := stepAt units
  let below := if units = Nat.pow 2 units.log2 ∧ 1 < step then step else 2 * step
  ⟨4 * units - below, 4 * units + 2 * step, units / step % 2 = 0⟩

def powerOfTen (exponent : Int) : Nat × Nat :=
  if 0 ≤ exponent then (Nat.pow 10 exponent.toNat, 1) else (1, Nat.pow 10 (-exponent).toNat)

/-- The exponent of a positive double's leading digit. -/
def leadingExponent (units : Nat) : Int :=
  ((Nat.toDigits 10 (units * Nat.pow 10 400 / unitsPerOne)).length : Int) - 401

/-- The multiple of a power of ten next to a positive double, if one rounds to it: the
    nearer of the two neighbours, and of two equally near the even one. -/
def onGrid? (units : Nat) (exponent : Int) : Option Nat :=
  let (numerator, denominator) := powerOfTen exponent
  let scale := denominator
  let unit := numerator * (4 * unitsPerOne)
  let value := 4 * units * scale
  let floor := value / unit
  let fits := fun candidate => (interval units).contains (candidate * unit) scale
  let twice := 2 * (value % unit)
  let upper := unit < twice || (twice = unit && floor % 2 = 1)
  match fits floor, fits (floor + 1) with
  | true, true => some (if upper then floor + 1 else floor)
  | true, false => some floor
  | false, true => some (floor + 1)
  | false, false => none

/-- The fewest digits that read back as a positive double, as a whole number and the
    exponent of its last digit. Seventeen digits are always enough. -/
def shortest (units : Nat) : Nat × Int :=
  let lead := leadingExponent units
  let found := (List.range 17).findSome? fun (more : Nat) =>
    (onGrid? units (lead - more)).map fun digits => (digits, lead - (more : Int))
  found.getD (0, 0)

/-! ## Layout -/

/-- Digits and the exponent of the first of them, laid out as a number. -/
def layOut (digits : List Char) (lead : Int) : List Char :=
  if 0 ≤ lead ∧ lead ≤ 15 then
    let whole := lead.toNat + 1
    let padded := digits ++ List.replicate (whole - digits.length) '0'
    let fraction := padded.drop whole
    padded.take whole ++ '.' :: (if fraction.isEmpty then ['0'] else fraction)
  else if -5 ≤ lead ∧ lead < 0 then
    '0' :: '.' :: (List.replicate ((-lead).toNat - 1) '0' ++ digits)
  else
    let fraction := digits.drop 1
    let sign := if 0 ≤ lead then '+' else '-'
    digits.take 1 ++ (if fraction.isEmpty then [] else '.' :: fraction) ++
      'e' :: sign :: (toString lead.natAbs).toList

/-- Digits without the zeros they end in. -/
def dropTrailingZeros (digits : List Char) : List Char :=
  (digits.reverse.dropWhile (· == '0')).reverse

/-- The text of a finite double: zero keeps its sign, and there is always a point or an
    exponent. -/
def finiteText (negative : Bool) (units : Nat) : String :=
  let sign := if negative then ['-'] else []
  let body :=
    if units = 0 then ['0', '.', '0']
    else
      let (number, last) := shortest units
      let digits := Nat.toDigits 10 number
      layOut (dropTrailingZeros digits) (last + digits.length - 1)
  String.ofList (sign ++ body)

end OperatorGen.Binary64
