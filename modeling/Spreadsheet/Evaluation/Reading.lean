-- SUMMARY: Reading references as values.
import Spreadsheet.Evaluation.Inquiry
import Spreadsheet.Function.Definition

/-! # Reading references

A reference to one cell reads as the scalar of the cell, a larger area as a table with a
cell for each of its cells. Only cells in the used part of a sheet are asked for, since all
others are blank. Each reading is noted first, an area as a whole.
-/

namespace Spreadsheet

/-- The most cells that a table read from a sheet may have. -/
def maxTableCells : Nat := 4194304

namespace Site

/-- Asks for the last `count` cells of `block`, row by row, and adds their scalars to `read`.
Cells outside `used` are blank. -/
def readCells (block : Area) (used : Option Area) :
    (count : Nat) → (read : Array Scalar) → Inquiry (Array Scalar)
  | 0, read => .done read
  | count + 1, read =>
    let cell := block.cellAt (block.size - (count + 1))
    if used.any (·.contains cell) then
      .ask cell fun v => readCells block used count (read.push v.toScalar)
    else readCells block used count (read.push .blank)

/-- The table of the cells of `block`. -/
def readBlock (block : Area) (used : Option Area) : Inquiry Table :=
  (readCells block used block.size (.emptyWithCapacity block.size)).bind fun cells =>
    .done ⟨block.height, block.width, cells⟩

/-- The scalar of a cell. -/
def readCell (cell : CellAddress) : Inquiry Value :=
  .note (.cell cell) (.ask cell fun v => .done (.scalar v.toScalar))

/-- The used cells of an area as a table, or a single blank if none is used. -/
def readUsed (site : Site) (area : Area) : Inquiry Table :=
  let (rows, cols) := site.source.extent area.sheet
  .note (.used area) <|
    match area.within? rows cols with
    | some used => readBlock used (some used)
    | none => .done (.single .blank)

/-- The value of an area. Whole columns and whole rows end with the used part of the sheet, and
what would be too large a table is an error. -/
def readArea (site : Site) (area : Area) : Inquiry Value :=
  if area.isSingleCell then readCell area.topLeft
  else
    let (rows, cols) := site.source.extent area.sheet
    let block := area.clip rows cols
    .note (.table area) <|
      if maxTableCells < block.size then .done (.error .number)
      else (readBlock block (block.within? rows cols)).bind fun t => .done (.table t)

/-- The value of an operand. Several areas have none. -/
def read (site : Site) : Operand → Inquiry Value
  | .value v => .done v
  | .reference r =>
    match r.area? with
    | some area => site.readArea area
    | none => .done (.error .value)

/-- The used cells of several areas. -/
def readAllUsed (site : Site) : List Area → Inquiry (List Table)
  | [] => .done []
  | area :: areas =>
    (site.readUsed area).bind fun t => (site.readAllUsed areas).bind fun ts => .done (t :: ts)

/-! ## Names -/

/-- The sheet of a reference: the one it names, spelled as there, if there is such a sheet, or
that of the cell. -/
def sheet? (site : Site) : Option String → Option String
  | some name => (site.source.sheetName? name).map fun _ => name
  | none => some site.cell.sheet

/-- What a name stands for. -/
def named (site : Site) (name : String) : Operand :=
  match site.source.nameTarget? name with
  | none => .error .name
  | some area =>
    match site.source.sheetName? area.sheet with
    | some sheet => .ofArea { area with sheet }
    | none => .error .reference

end Site

end Spreadsheet
