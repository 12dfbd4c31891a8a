-- SUMMARY: Reading decimal text as the nearest double.
import Spreadsheet.Decimal.Digits

/-! # Reading decimal text

A number is digits with an optional point, an optional power of ten after `e` and an
optional sign in front. It reads as the double nearest to it, beyond the greatest as an
infinity.
-/

namespace Spreadsheet.Decimal

/-- The double nearest to `digits * 10 ^ exponent`. Numbers far outside the range of doubles
are told by their magnitude, without computing the power. -/
def nearest (digits : Nat) (exponent : Int) : Float :=
  let top := (digitCount digits : Int) + exponent
  if digits = 0 ∨ top < -400 then 0
  else if 400 < top then 1 / 0
  else Float.ofScientific digits (exponent < 0) exponent.natAbs

def Scaled.toFloat (d : Scaled) : Float := nearest d.digits d.exponent

/-- The power of ten written by what follows the digits. -/
def readExponent? : List Char → Option Int
  | [] => some 0
  | 'e' :: cs | 'E' :: cs =>
    match cs with
    | '-' :: cs => (Text.readNat? cs).map fun n => -n
    | '+' :: cs => (Text.readNat? cs).map fun n => n
    | cs => (Text.readNat? cs).map fun n => n
  | _ => none

/-- A number without a sign. -/
def readUnsigned? (cs : List Char) : Option Float :=
  let whole := cs.takeWhile Char.isDigit
  let rest := cs.dropWhile Char.isDigit
  let (fraction, rest) := match rest with
    | '.' :: cs => (cs.takeWhile Char.isDigit, cs.dropWhile Char.isDigit)
    | _ => ([], rest)
  if whole.isEmpty && fraction.isEmpty then none
  else (readExponent? rest).map fun exponent =>
    nearest (Nat.ofDigitChars 10 (whole ++ fraction) 0) (exponent - fraction.length)

/-- A number with or without a sign. -/
def read? : List Char → Option Float
  | '-' :: cs => (readUnsigned? cs).map fun x => -x
  | '+' :: cs => readUnsigned? cs
  | cs => readUnsigned? cs

end Spreadsheet.Decimal
