-- SUMMARY: Reading the text of cells and areas in A1 style, with or without a sheet name.
import Spreadsheet.Area

/-! # Reading references

A reference is one cell (`B2`, `$B$2`, or `R2C2` with absolute numbers), a block
(`B2:C5`), whole columns (`A:C`) or whole rows (`3:7`), with an optional sheet name in
front. The corners of an area may be written in either order.
-/

namespace Spreadsheet

open Text

/-- The two corners of an area as written, without a sheet. -/
structure Corners where
  first : Coord
  last : Coord
  kind : AreaKind
  deriving DecidableEq, Repr

/-- The area of a sheet between the corners. -/
def Corners.on (corners : Corners) (sheet : String) : Area where
  sheet := sheet
  top := corners.first.row
  left := corners.first.col
  bottom := corners.last.row
  right := corners.last.col
  kind := corners.kind

namespace Reference

def isRowLetter (c : Char) : Bool := c == 'R' || c == 'r'

def isColLetter (c : Char) : Bool := c == 'C' || c == 'c'

/-- A cell written as `R`, its row number, `C` and its column number. -/
def readAbsoluteR1C1? (cs : List Char) : Option Coord :=
  match cs with
  | [] => none
  | r :: cs =>
    if isRowLetter r then
      match cs.dropWhile Char.isDigit with
      | [] => none
      | c :: digits =>
        if isColLetter c then do
          let row ← Grid.readRow? (cs.takeWhile Char.isDigit)
          let col ← Grid.readCol? digits
          return { row, col, rowAbsolute := true, colAbsolute := true }
        else none
    else none

/-- A cell without a sheet, in A1 style or as absolute row and column numbers. -/
def readCoord? (cs : List Char) : Option Coord :=
  match Coord.ofChars cs with
  | .ok coord => some coord
  | .error _ => readAbsoluteR1C1? (trimChars cs)

/-- A column of whole columns, and whether it is marked `$`. -/
def readColumn? (cs : List Char) : Option (Nat × Bool) :=
  let (absolute, letters) := Coord.takeMark (trimChars cs)
  match Grid.columnOfLetters letters with
  | .ok col => some (col, absolute)
  | .error _ => none

/-- A row of whole rows, and whether it is marked `$`. -/
def readRow? (cs : List Char) : Option (Nat × Bool) :=
  let (absolute, digits) := Coord.takeMark (trimChars cs)
  (Grid.readRow? digits).map (·, absolute)

/-- The corners of an area when both sides of `:` are of one sort: cells, columns or rows. -/
def readSides? (first second : List Char) : Option Corners :=
  match readCoord? first, readCoord? second with
  | some a, some b =>
    let (first, last) := Coord.corners a b
    some { first, last, kind := .cells }
  | _, _ =>
    match readColumn? first, readColumn? second with
    | some (col₁, mark₁), some (col₂, mark₂) =>
      let (first, last) := Coord.corners { row := 1, col := col₁, colAbsolute := mark₁ }
        { row := Grid.maxRows, col := col₂, colAbsolute := mark₂ }
      some { first, last, kind := .columns }
    | _, _ =>
      match readRow? first, readRow? second with
      | some (row₁, mark₁), some (row₂, mark₂) =>
        let (first, last) := Coord.corners { row := row₁, col := 1, rowAbsolute := mark₁ }
          { row := row₂, col := Grid.maxCols, rowAbsolute := mark₂ }
        some { first, last, kind := .rows }
      | _, _ => none

/-- The corners of an area written without a sheet. A single cell is both of its corners. -/
def readCorners (cs : List Char) : Except ReferenceFault Corners :=
  let corners? :=
    match splitFirst? ':' cs with
    | none => (readCoord? cs).map fun coord => { first := coord, last := coord, kind := .cells }
    | some (first, second) => readSides? first second
  match corners? with
  | some corners => .ok corners
  | none => .error (.unreadable (String.ofList (trimChars cs)))

/-- The cell written by `cs`, on `sheet` unless it names its own. -/
def readCell (cs : List Char) (sheet : String) : Except Fault CellAddress := do
  let (named, body) ← (SheetName.splitChars cs).mapError .reference
  match readCoord? body with
  | none => throw (.reference (.unreadable (String.ofList (trimChars cs))))
  | some coord =>
    let cell := coord.on (named.getD sheet)
    cell.checkBounds
    return cell

/-- The area written by `cs`, on `sheet` unless it names its own. -/
def readArea (cs : List Char) (sheet : String) : Except Fault Area := do
  let (named, body) ← (SheetName.splitCornersChars cs).mapError .reference
  let sheet := named.getD sheet
  if sheet.isEmpty then throw (.reference (.unreadable (String.ofList (trimChars cs))))
  let corners ← (readCorners body).mapError .reference
  return corners.on sheet

end Reference

def CellAddress.ofText (s sheet : String) : Except Fault CellAddress :=
  Reference.readCell s.toList sheet

def Area.ofText (s sheet : String) : Except Fault Area := Reference.readArea s.toList sheet

end Spreadsheet
