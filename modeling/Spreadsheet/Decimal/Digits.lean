-- SUMMARY: The decimal digits of a number: the fewest that read back, or a fixed count of them.
import Spreadsheet.Decimal.Parts

/-! # Decimal digits

`shortest` gives the fewest digits that read back as the same double, and of those the
nearest to it. `rounded` gives a fixed count of digits, a half going to the even digit.
Both work on a decimal grid, the multiples of a power of ten, in exact arithmetic.
-/

namespace Spreadsheet.Decimal

/-- The number `digits * 10 ^ exponent`. -/
structure Scaled where
  digits : Nat
  exponent : Int
  deriving DecidableEq, Repr

/-- How many decimal digits a whole number has. -/
def digitCount (n : Nat) : Nat := (Nat.toDigits 10 n).length

/-- The least power of ten above the fraction `num / den`, which is not zero. -/
def magnitude (num den : Nat) : Int :=
  if den ≤ num then digitCount (num / den) else 1 - (digitCount ((den - 1) / num) : Int)

/-- The fraction `num / den` over the grid of multiples of `10 ^ k`. -/
def onGrid (num den : Nat) (k : Int) : Nat × Nat :=
  if 0 ≤ k then (num, den * Nat.pow 10 k.toNat) else (num * Nat.pow 10 (-k).toNat, den)

/-- Without trailing zeros. -/
def strip (d : Scaled) : Scaled :=
  let ds := (Nat.toDigits 10 d.digits).reverse
  let zeros := (ds.takeWhile (· == '0')).length
  if d.digits = 0 then d else ⟨d.digits / Nat.pow 10 zeros, d.exponent + zeros⟩

/-! ## The fewest digits -/

/-- The fractions that read back as `p`, in quarters of its last place: the least, the number
itself, the greatest. Numbers just above a power of two have a nearer neighbour below. -/
def Parts.neighbourhood (p : Parts) : Nat × Nat × Nat :=
  let below := if p.mantissa = leadingBit ∧ minExponent < p.exponent then 1 else 2
  (4 * p.mantissa - below, 4 * p.mantissa, 4 * p.mantissa + 2)

/-- A multiple of `10 ^ k` that reads back as `p`, the nearer one if there are two. The ends of
the neighbourhood read back when the mantissa is even. Of two equally near the upper is taken. -/
def Parts.onGrid? (p : Parts) (k : Int) : Option Scaled :=
  let (low, value, high) := p.neighbourhood
  let unit := Parts.ratio ⟨false, 1, p.exponent - 2⟩
  let (scale, den) := onGrid unit.1 unit.2 k
  let floor := value * scale / den
  let inside (n : Nat) : Bool :=
    if p.mantissa % 2 = 0 then low * scale ≤ n * den && n * den ≤ high * scale
    else low * scale < n * den && n * den < high * scale
  let nearerBelow := 2 * (value * scale) < (2 * floor + 1) * den
  if inside floor && (nearerBelow || !inside (floor + 1)) then some ⟨floor, k⟩
  else if inside (floor + 1) then some ⟨floor + 1, k⟩
  else none

/-- The fewest digits that read back as the magnitude of `p`, nearest to it among those. -/
def shortest (p : Parts) : Scaled :=
  if p.mantissa = 0 then ⟨0, 0⟩
  else
    let top := magnitude p.ratio.1 p.ratio.2
    strip (((List.range 18).findSome? fun (n : Nat) => p.onGrid? (top - n)).getD ⟨0, 0⟩)

/-! ## A fixed count of digits -/

/-- The whole number nearest to `num / den`, the even one of two. -/
def divideToEven (num den : Nat) : Nat :=
  let floor := num / den
  let twice := 2 * (num % den)
  if den < twice ∨ (twice = den ∧ floor % 2 = 1) then floor + 1 else floor

/-- The magnitude of `p` to `count` digits, a half going to the even digit. -/
def rounded (p : Parts) (count : Nat) : Scaled :=
  if p.mantissa = 0 then ⟨0, 0⟩
  else
    let k := magnitude p.ratio.1 p.ratio.2 - count
    let (num, den) := onGrid p.ratio.1 p.ratio.2 k
    ⟨divideToEven num den, k⟩

/-! ## Writing digits -/

/-- Digits with a decimal point where it falls and no power of ten. -/
def Scaled.positional (d : Scaled) : List Char :=
  let ds := Nat.toDigits 10 d.digits
  if 0 ≤ d.exponent then ds ++ List.replicate d.exponent.toNat '0'
  else
    let places := (-d.exponent).toNat
    if places < ds.length then
      ds.take (ds.length - places) ++ '.' :: ds.drop (ds.length - places)
    else '0' :: '.' :: List.replicate (places - ds.length) '0' ++ ds

/-- One digit, the others after a point, and the power of ten after `E` with its sign and at
least two digits. -/
def Scaled.scientific (d : Scaled) : List Char :=
  let ds := Nat.toDigits 10 d.digits
  let power := d.exponent + (ds.length - 1 : Nat)
  let powerDigits := Nat.toDigits 10 power.natAbs
  let mantissa := match ds with
    | first :: rest@(_ :: _) => first :: '.' :: rest
    | _ => ds
  mantissa ++ 'E' :: (if power < 0 then '-' else '+') ::
    (List.replicate (2 - powerDigits.length) '0' ++ powerDigits)

end Spreadsheet.Decimal
