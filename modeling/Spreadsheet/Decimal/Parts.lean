-- SUMMARY: A finite double as a whole number times a power of two, and its whole part.
import Spreadsheet.Text.Split

/-! # The parts of a double

A finite double is a sign and a whole number of at most 53 bits times a power of two.
Everything exact about numbers, their digits and their whole parts, is computed from these
parts in whole-number arithmetic.
-/

namespace Spreadsheet.Decimal

/-- The number `mantissa * 2 ^ exponent`, negated if `negative`. -/
structure Parts where
  negative : Bool
  mantissa : Nat
  exponent : Int
  deriving DecidableEq, Repr

/-- The least exponent, that of zero and of the subnormal numbers. -/
def minExponent : Int := -1074

/-- The first bit of a mantissa, which numbers above the subnormal ones have without storing it. -/
def leadingBit : Nat := 1 <<< 52

/-- The parts of a finite number; none for the infinities and for what is not a number. -/
def parts? (x : Float) : Option Parts :=
  let bits := x.toBits.toNat
  let negative := bits >>> 63 == 1
  let biased := (bits >>> 52) % 2048
  let fraction := bits % leadingBit
  if biased = 2047 then none
  else if biased = 0 then some ⟨negative, fraction, minExponent⟩
  else some ⟨negative, leadingBit + fraction, minExponent + (biased - 1 : Nat)⟩

namespace Parts

/-- The magnitude as a fraction: its numerator and its denominator. -/
def ratio (p : Parts) : Nat × Nat :=
  if 0 ≤ p.exponent then (p.mantissa <<< p.exponent.toNat, 1)
  else (p.mantissa, 1 <<< (-p.exponent).toNat)

/-- The number without its fraction. -/
def whole (p : Parts) : Int :=
  let n : Nat := p.ratio.1 / p.ratio.2
  if p.negative then -n else n

end Parts

/-- The whole part of a number as a 64-bit word: the nearest word if it is out of range, and
zero for what is not a number. -/
def truncate (x : Float) : Int :=
  match parts? x with
  | some p => Text.clampWord p.whole
  | none => if x.isNaN then 0 else if x < 0 then Text.minWord else Text.maxWord

end Spreadsheet.Decimal
