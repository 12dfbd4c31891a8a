-- SUMMARY: Reading references that count rows and columns, absolutely or from a base cell.
import Spreadsheet.Reference.A1

/-! # Counted references

`R2C3` is a cell by row and column number. A number in brackets counts from the base
cell, so `R[1]C[-1]` is one row below and one column left of it, and a missing number is
the row or column of the base cell itself.
-/

namespace Spreadsheet.Reference

open Text

/-- What follows `R` or `C`: nothing, a number in brackets or a number. Reading is in 64-bit
words: a number beyond them is unreadable, and a sum beyond them is the nearest word. -/
def readAxis? (base : Nat) : List Char → Option Int
  | [] => some base
  | '[' :: cs =>
    if cs.getLast? = some ']' then (readWord? cs.dropLast).map fun d => clampWord (base + d)
    else none
  | cs => (readNat? cs).bind fun n => word? n

/-- The row and the column of a cell, before the grid's limits are checked. -/
def readRowCol? (cs : List Char) (base : CellAddress) : Option (Int × Int) :=
  match trimChars cs with
  | [] => none
  | r :: cs =>
    if isRowLetter r then
      match cs.dropWhile (!isColLetter ·) with
      | [] => none
      | _ :: after => do
        let row ← readAxis? base.row (cs.takeWhile (!isColLetter ·))
        let col ← readAxis? base.col after
        return (row, col)
    else none

def readCountedRow? (cs : List Char) (base : CellAddress) : Option Int :=
  match cs with
  | r :: cs => if isRowLetter r then readAxis? base.row cs else none
  | [] => none

def readCountedCol? (cs : List Char) (base : CellAddress) : Option Int :=
  match cs with
  | c :: cs => if isColLetter c then readAxis? base.col cs else none
  | [] => none

/-- The cell at a row and a column, which have to lie in the grid. -/
def cellInGrid (sheet : String) (row col : Int) : Except Fault CellAddress :=
  if Grid.HasRow row ∧ Grid.HasCol col then .ok ⟨sheet, row.toNat, col.toNat⟩
  else .error (.outOfBounds row col)

/-- The cell written by `cs`, counting from `base` and on its sheet unless `cs` names one. -/
def readCountedCell (cs : List Char) (base : CellAddress) : Except Fault CellAddress := do
  let (named, body) ← (SheetName.splitChars cs).mapError .reference
  match readRowCol? body base with
  | none => throw (.reference (.unreadable (String.ofList (trimChars cs))))
  | some (row, col) => cellInGrid (named.getD base.sheet) row col

/-- The area written by `cs`: a cell, two cells, whole rows or whole columns. -/
def readCountedArea (cs : List Char) (base : CellAddress) : Except Fault Area := do
  let (named, body) ← (SheetName.splitCornersChars cs).mapError .reference
  let sheet := named.getD base.sheet
  let (first, second) := (splitFirst? ':' body).getD (body, body)
  match readRowCol? first base, readRowCol? second base with
  | some (row₁, col₁), some (row₂, col₂) =>
    let a ← cellInGrid sheet row₁ col₁
    let b ← cellInGrid sheet row₂ col₂
    return Area.ofCorners sheet a.row a.col b.row b.col
  | _, _ =>
    match readCountedRow? first base, readCountedRow? second base with
    | some row₁, some row₂ =>
      if ¬ Grid.HasRow row₁ then throw (.outOfBounds row₁ 1)
      if ¬ Grid.HasRow row₂ then throw (.outOfBounds row₂ 1)
      return Area.wholeRows sheet row₁.toNat row₂.toNat
    | _, _ =>
      match readCountedCol? first base, readCountedCol? second base with
      | some col₁, some col₂ =>
        if ¬ Grid.HasCol col₁ then throw (.outOfBounds 1 col₁)
        if ¬ Grid.HasCol col₂ then throw (.outOfBounds 1 col₂)
        return Area.wholeColumns sheet col₁.toNat col₂.toNat
      | _, _ => throw (.reference (.unreadable (String.ofList (trimChars cs))))

end Spreadsheet.Reference
