-- SUMMARY: Functions on references: moving, indexing, reading and writing them.
import Spreadsheet.Area.Offset
import Spreadsheet.Decimal.Parts
import Spreadsheet.Function.Definition
import Spreadsheet.Reference.R1C1

/-! # Functions on references

`OFFSET`, `INDEX` and `INDIRECT` give references, which are read only where a value is
wanted. The others tell something about a reference or write one as text.
-/

namespace Spreadsheet.Function

/-- The number at `index` without its fraction. -/
def wholeArg? (args : List Argument) (index : Nat) : Option Int :=
  (args[index]?.bind Argument.number?).map Decimal.truncate

/-- The area of an argument that has to be a reference with one area. -/
def areaArg : Option Argument → Except ErrorValue Area
  | some (.reference r) => (Operand.reference r).area
  | some (.value v) => (Operand.value v).area
  | _ => .error .value

/-! ## References -/

/-- `OFFSET(reference, rows, columns, [height], [width])` -/
def offset (_ : Site) (args : List Argument) : Operand :=
  match areaArg args.head? with
  | .error e => .error e
  | .ok base =>
    match base.offset ((wholeArg? args 1).getD 0) ((wholeArg? args 2).getD 0)
        (wholeArg? args 3) (wholeArg? args 4) with
    | .ok area => .ofArea area
    | .error fault => .error fault.errorValue

/-- A part of a block of rows and columns, which count from zero. -/
inductive Slice where
  | cell (row col : Nat)
  | row (row : Nat)
  | column (col : Nat)
  deriving DecidableEq, Repr

/-- The part that a row number and a column number choose. Zero stands for all rows or all
columns. Without a column number, a single row is indexed by its columns. -/
def slice (rows cols : Nat) (rowNum : Int) (colNum? : Option Int) : Except ErrorValue Slice :=
  let (rowNum, colNum) := match colNum? with
    | some colNum => (rowNum, colNum)
    | none => if rows = 1 ∧ 1 < cols then (1, rowNum) else (rowNum, 1)
  if rowNum < 0 ∨ colNum < 0 then .error .value
  else if rows < rowNum ∨ cols < colNum then .error .reference
  else match rowNum.toNat, colNum.toNat with
    | 0, 0 => .error .value
    | 0, col + 1 => .ok (.column col)
    | row + 1, 0 => .ok (.row row)
    | row + 1, col + 1 => .ok (.cell row col)

/-- The part of an area. A row of whole rows is a whole row, and so with columns. -/
def sliceOfArea (area : Area) : Slice → Area
  | .cell row col => .ofCell ⟨area.sheet, area.top + row, area.left + col⟩
  | .row row =>
    { area with
      top := area.top + row
      bottom := area.top + row
      kind := if area.kind = .rows then .rows else .cells }
  | .column col =>
    { area with
      left := area.left + col
      right := area.left + col
      kind := if area.kind = .columns then .columns else .cells }

/-- The part of a table. -/
def sliceOfTable (t : Table) (part : Slice) : Value :=
  let v? := match part with
    | .cell row col => (t.get? row col).map Value.scalar
    | .row row => (t.row? row).map Value.table
    | .column col => (t.column? col).map Value.table
  v?.getD (.error .reference)

/-- `INDEX(reference or table, row, [column], [area])` -/
def index (_ : Site) (args : List Argument) : Operand :=
  let rowNum := (wholeArg? args 1).getD 0
  let colNum? := wholeArg? args 2
  let areaNum := (wholeArg? args 3).getD 1
  match args.head? with
  | some (.reference r) =>
    if areaNum < 1 then .error .reference
    else match r.areas[(areaNum - 1).toNat]? with
      | none => .error .reference
      | some area =>
        match slice area.height area.width rowNum colNum? with
        | .ok part => .ofArea (sliceOfArea area part)
        | .error e => .error e
  | some (.value (.error e)) => .error e
  | some (.value v) =>
    if areaNum ≠ 1 then .error .reference
    else
      let t := v.toTable
      match slice t.rows t.cols rowNum colNum? with
      | .ok part => .value (sliceOfTable t part)
      | .error e => .error e
  | _ => .error .value

/-- `INDIRECT(text, [in A1 style])`. Text that is no reference may be a name. -/
def indirect (site : Site) (args : List Argument) : Operand :=
  let text := Text.trimChars ((args.head?.bind Argument.text?).getD "").toList
  let inA1 := (args[1]?.bind Argument.bool?).getD true
  if text.isEmpty then .error .name
  else
    let read :=
      if inA1 then Reference.readArea text site.cell.sheet
      else Reference.readCountedArea text site.cell
    let area? := match read with
      | .ok area => some area
      | .error _ => site.source.nameTarget? (String.ofList text)
    match area? with
    | none => .error .name
    | some area =>
      match site.source.sheetName? area.sheet with
      | some sheet => .ofArea { area with sheet }
      | none => .error .name

/-! ## About references -/

/-- A number about the area of the argument, or about the calling cell without one. -/
def positionOf (ofCell : CellAddress → Nat) (site : Site) (args : List Argument) : Reply :=
  match args.head? with
  | none => .value (.number (Number.ofCount (ofCell site.cell)))
  | some arg =>
    match areaArg (some arg) with
    | .ok area => .value (.number (Number.ofCount (ofCell area.topLeft)))
    | .error e => .value (.error e)

/-- `ROW([reference])` -/
def row (site : Site) (args : List Argument) : Reply := positionOf CellAddress.row site args

/-- `COLUMN([reference])` -/
def column (site : Site) (args : List Argument) : Reply := positionOf CellAddress.col site args

/-- The rows and columns of a reference or a table. -/
def sizeOf : Option Argument → Except ErrorValue (Nat × Nat)
  | some (.value (.table t)) => .ok (t.rows, t.cols)
  | some (.value (.error e)) => .error e
  | some (.value _) => .ok (1, 1)
  | arg? => (areaArg arg?).map fun area => (area.height, area.width)

def sizeValue (part : Nat × Nat → Nat) (args : List Argument) : Value :=
  match sizeOf args.head? with
  | .ok size => .number (Number.ofCount (part size))
  | .error e => .error e

/-- `ROWS(reference or table)` -/
def rows (args : List Argument) : Value := sizeValue Prod.fst args

/-- `COLUMNS(reference or table)` -/
def columns (args : List Argument) : Value := sizeValue Prod.snd args

/-- `AREAS(reference)` -/
def areas (args : List Argument) : Value :=
  match args.head? with
  | some (.reference r) => .number (Number.ofCount r.areas.length)
  | some (.value (.error e)) => .error e
  | _ => .error .value

/-- Which of the row and the column is absolute, numbered as in `ADDRESS`. -/
def addressMarks? : Int → Option (Bool × Bool)
  | 1 => some (true, true)
  | 2 => some (true, false)
  | 3 => some (false, true)
  | 4 => some (false, false)
  | _ => none

/-- A letter and a number, in brackets if it is not absolute. -/
def countedText (letter : Char) (absolute : Bool) (n : Nat) : List Char :=
  let ds := Nat.toDigits 10 n
  letter :: if absolute then ds else '[' :: ds ++ [']']

/-- The text of a cell in either style, behind the name of a sheet if there is one. -/
def addressText (coord : Coord) (inA1 : Bool) (sheet : String) : String :=
  let body :=
    if inA1 then coord.textChars
    else countedText 'R' coord.rowAbsolute coord.row ++ countedText 'C' coord.colAbsolute coord.col
  String.ofList (if sheet.isEmpty then body else SheetName.beforeReference sheet ++ body)

/-- `ADDRESS(row, column, [marks], [in A1 style], [sheet])` -/
def address (args : List Argument) : Value :=
  match wholeArg? args 0, wholeArg? args 1 with
  | some row, some col =>
    if ¬ (Grid.HasRow row ∧ Grid.HasCol col) then .error .value
    else match addressMarks? ((wholeArg? args 2).getD 1) with
      | none => .error .value
      | some (rowAbsolute, colAbsolute) =>
        .text (addressText { row := row.toNat, col := col.toNat, rowAbsolute, colAbsolute }
          ((args[3]?.bind Argument.bool?).getD true) ((args[4]?.bind Argument.text?).getD ""))
  | _, _ => .error .value

end Spreadsheet.Function
