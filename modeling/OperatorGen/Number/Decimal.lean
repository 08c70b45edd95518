import OperatorGen.Number.Binary64

/-!
# Decimal literals

The literals in which the bounds of a parameter are written: a sign, then digits with an
optional point and an optional exponent, or one of the words `inf`, `infinity` and `nan`
in any ASCII case. `Literal.read?` accepts exactly these, and `Literal.toBinary64` gives
the double nearest to what is written.
-/
namespace OperatorGen

/-- A decimal number: a signed whole number times a power of ten. -/
structure Decimal where
  negative : Bool
  significand : Nat
  exponent : Int
  deriving DecidableEq, Repr, Inhabited

namespace Decimal

def digitValue (c : Char) : Nat :=
  c.toNat - '0'.toNat

/-- The number that digits write, after a number already read. -/
def extend (before : Nat) (digits : List Char) : Nat :=
  digits.foldl (fun total c => 10 * total + digitValue c) before

def ofDigits (digits : List Char) : Nat :=
  extend 0 digits

/-- How many decimal digits a number has; zero has one. -/
def digitCount (n : Nat) : Nat :=
  (Nat.toDigits 10 n).length

/-- The nearest double. A magnitude of at least 10^310 is beyond every double and one
    below 10^-330 is nearer to zero than to any other, so neither power is computed. -/
def toBinary64 (d : Decimal) : Binary64 :=
  let magnitude : Int := digitCount d.significand + d.exponent
  if d.significand = 0 then .finite d.negative 0
  else if 310 < magnitude then .infinite d.negative
  else if magnitude < -330 then .finite d.negative 0
  else if 0 ≤ d.exponent then
    .ofRatio d.negative (d.significand * Nat.pow 10 d.exponent.toNat) 1
  else
    .ofRatio d.negative d.significand (Nat.pow 10 (-d.exponent).toNat)

end Decimal

/-- What the text of a bound writes. -/
inductive Literal where
  | decimal (value : Decimal)
  | infinite (negative : Bool)
  | nan
  deriving DecidableEq, Repr, Inhabited

namespace Literal

/-- The sign at the front of a text, if there is one, and the rest. -/
def splitSign : List Char → Bool × List Char
  | '-' :: rest => (true, rest)
  | '+' :: rest => (false, rest)
  | rest => (false, rest)

/-- The exponent at the end of a decimal: nothing, or `e`, a sign and at least one digit. -/
def readExponent? : List Char → Option Int
  | [] => some 0
  | mark :: rest =>
    if mark = 'e' ∨ mark = 'E' then
      let (negative, digits) := splitSign rest
      if digits.isEmpty || !digits.all Char.isDigit then none
      else some (Binary64.signed negative (Decimal.ofDigits digits))
    else none

/-- Digits after a point at the front of a text, and the rest. -/
def splitFraction : List Char → List Char × List Char
  | '.' :: rest => rest.span Char.isDigit
  | rest => ([], rest)

/-- The decimal that an unsigned text writes. -/
def readDecimal? (negative : Bool) (chars : List Char) : Option Decimal := do
  let (whole, rest) := chars.span Char.isDigit
  let (fraction, rest) := splitFraction rest
  if whole.isEmpty && fraction.isEmpty then none
  else
    let exponent ← readExponent? rest
    some ⟨negative, Decimal.ofDigits (whole ++ fraction), exponent - fraction.length⟩

/-- What a text writes, unless it is no literal. -/
def read? (text : String) : Option Literal :=
  let (negative, chars) := splitSign text.toList
  let word := String.ofList (chars.map Char.toLower)
  if word = "inf" ∨ word = "infinity" then some (.infinite negative)
  else if word = "nan" then some .nan
  else (readDecimal? negative chars).map .decimal

def toBinary64 : Literal → Binary64
  | .decimal value => value.toBinary64
  | .infinite negative => .infinite negative
  | .nan => .nan

end Literal
end OperatorGen
