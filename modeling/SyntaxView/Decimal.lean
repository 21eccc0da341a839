/-!
# Decimal literals

The parts of a number literal and whether its magnitude lies in the range of double precision. There are two tests.
`inRange` compares the literal with the bound exactly. `inProductRange` takes the leading digits that 64 bits hold and
multiplies them with a power of ten, both rounded to double precision; just below the bound it refuses literals that the
exact test takes.
-/

namespace SyntaxView

def isDigit (c : Char) : Bool := '0' ≤ c && c ≤ '9'

/-- The value of decimal digits. -/
def digitsValue (ds : List Char) : Nat := ds.foldl (fun n d => n * 10 + (d.toNat - '0'.toNat)) 0

/-- A number literal: sign, digits before and after the point, and the exponent with its sign. -/
structure Decimal where
  negative : Bool
  whole : List Char
  fraction : Option (List Char)
  exponent : Option (Bool × List Char)
  deriving DecidableEq, Repr

namespace Decimal

/-- The least magnitude that no double-precision number is near: half a unit beyond the largest one. -/
def doubleBound : Nat := Nat.pow 2 1024 - Nat.pow 2 970

/-- The literal's magnitude lies in the range of double precision. -/
def inRange (l : Decimal) : Bool :=
  let fraction := l.fraction.getD []
  let significand := digitsValue (l.whole ++ fraction)
  let exponent : Int :=
    match l.exponent with
    | none => 0
    | some (true, ds) => -(digitsValue ds : Int)
    | some (false, ds) => digitsValue ds
  let scale := exponent - fraction.length
  if significand = 0 then true
  else if scale > 308 then false
  else if scale ≥ 0 then significand * Nat.pow 10 scale.toNat < doubleBound
  -- A literal shorter than its scale is below one.
  else if (l.whole.length + fraction.length : Int) + scale ≤ 0 then true
  else significand < doubleBound * Nat.pow 10 (-scale).toNat

/-! ## Leading digits -/

/-- Append digits to a number as long as it fits into 64 bits; the digits from the first that does not fit are left. -/
def appendDigits : Nat → List Char → Nat × List Char
  | n, [] => (n, [])
  | n, d :: ds =>
    let m := n * 10 + (d.toNat - '0'.toNat)
    if m < 0x10000000000000000 then appendDigits m ds else (n, d :: ds)

/-- The nearest number with at most 53 binary digits before its zeros; a tie goes to the even one. -/
def roundToDouble (n : Nat) : Nat :=
  let unit := Nat.pow 2 (n.log2 - 52)
  let quotient := n / unit
  let double := 2 * (n % unit)
  if unit < double ∨ (double = unit ∧ quotient % 2 = 1) then (quotient + 1) * unit else quotient * unit

/-- The greatest exponent of ten in double precision. -/
def greatestExponent : Nat := 308

/-- The product of a significand and a power of ten lies in the range of double precision. -/
def isFiniteProduct (significand : Nat) (exponent : Int) : Bool :=
  if significand = 0 ∨ exponent < 0 then true
  else if greatestExponent < exponent then false
  else roundToDouble significand * roundToDouble (Nat.pow 10 exponent.toNat) < doubleBound

/-- The greatest exponent that a literal may write out. -/
def greatestWritten : Nat := 0x7fffffff

/-- The literal lies in the range of double precision, as a product of its leading digits and a power of ten. Digits
that the significand has no room for count as zeros before the point and not at all behind it. -/
def inProductRange (l : Decimal) : Bool :=
  let (whole, skipped) := appendDigits 0 l.whole
  let fraction := l.fraction.getD []
  let (significand, ignored) := appendDigits whole fraction
  let exponent : Int := (skipped.length : Int) - (fraction.length - ignored.length : Int)
  match l.exponent with
  | none => isFiniteProduct significand exponent
  | some (negative, ds) =>
    let written := digitsValue ds
    if greatestWritten < written then significand = 0 || negative
    else isFiniteProduct significand (if negative then exponent - written else exponent + written)

end Decimal

end SyntaxView
