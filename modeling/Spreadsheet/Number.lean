-- SUMMARY: Numbers of a sheet: their text, reading them from text, and when two are equal.
import Spreadsheet.Decimal.Reading
import Spreadsheet.Text.Blank

/-! # Numbers

Numbers are doubles. Their general text has at most fifteen digits and is positional for
magnitudes from a billionth up to a thousand million million. Text reads as a number when
nothing but blanks and a percent sign is around it.
-/

namespace Spreadsheet.Number

open Decimal Text

/-- Text for what is not finite. -/
def specialText (x : Float) : String :=
  if x.isNaN then "NaN" else if x < 0 then "-inf" else "inf"

def signed (negative : Bool) (cs : List Char) : String :=
  String.ofList (if negative then '-' :: cs else cs)

/-- The fewest digits that read back, never with a power of ten. -/
def plainText (x : Float) : String :=
  match parts? x with
  | none => specialText x
  | some p => signed p.negative (shortest p).positional

/-- The digits that the general text keeps. -/
def significantDigits : Nat := 15

/-- General text: rounded to fifteen digits, then the fewest digits that read back as the
rounded number, with a power of ten if it is very large or very small. -/
def text (x : Float) : String :=
  match parts? x with
  | none => specialText x
  | some p =>
    let r := (rounded p significantDigits).toFloat
    match parts? r with
    | none => specialText (if p.negative then -r else r)
    | some q =>
      if q.mantissa = 0 then "0"
      else if 1e-9 ≤ r && r < 1e15 then signed p.negative (shortest q).positional
      else signed p.negative (shortest q).scientific

/-- The finite number written by text. A percent sign after it divides by a hundred. -/
def ofChars? (cs : List Char) : Option Float :=
  let cs := trimChars cs
  let (cs, scale) :=
    if cs.getLast? = some '%' then (trimRight cs.dropLast, 0.01) else (cs, 1.0)
  ((read? cs).map (· * scale)).filter Float.isFinite

def ofText? (s : String) : Option Float := ofChars? s.toList

/-- A count as a number. Counts are 64-bit words. -/
def ofCount (n : Nat) : Float := n.toUInt64.toFloat

/-- The greater of two numbers; one that is not a number gives way. -/
def max (x y : Float) : Float := if x.isNaN then y else if x < y then y else x

/-- The lesser of two numbers; one that is not a number gives way. -/
def min (x y : Float) : Float := if x.isNaN then y else if y < x then y else x

/-- How far apart equal numbers may be, for each unit of their magnitude. -/
def tolerance : Float := 1e-15

def equal (x y : Float) : Bool :=
  x == y || (x - y).abs ≤ tolerance * max x.abs y.abs

end Spreadsheet.Number
