-- SUMMARY: What an evaluation sees of a workbook.
import Spreadsheet.Workbook

/-! # Sources

Formulas read a workbook through a source. Usually that is the workbook itself. A source
may also take sheet names as they are asked for, and may know names of its own.
-/

namespace Spreadsheet

structure Source where
  workbook : Workbook
  /-- Answers the name of a sheet as it was asked for, not as it is stored. -/
  asAsked : Bool := false
  /-- Names known by their exact spelling, before those of the workbook. -/
  names : List (String × Area) := []

namespace Source

/-- The name that a sheet goes by, if there is such a sheet. -/
def sheetName? (source : Source) (name : String) : Option String :=
  if source.asAsked then if source.workbook.hasSheet name then some name else none
  else source.workbook.sheetName? name

def nameTarget? (source : Source) (name : String) : Option Area :=
  (source.names.lookup name).or (source.workbook.nameTarget? name)

/-- The extent in use of a sheet, no rows and columns if nothing was written. -/
def extent (source : Source) (sheet : String) : Nat × Nat :=
  (source.workbook.extent? sheet).getD (0, 0)

/-- The address by the name that its sheet goes by. It has to lie in the grid of a sheet. -/
def canonical (source : Source) (cell : CellAddress) : Except Fault CellAddress := do
  cell.checkBounds
  match source.sheetName? cell.sheet with
  | some sheet => return { cell with sheet }
  | none => throw (.noSuchSheet cell.sheet)

end Source

end Spreadsheet
