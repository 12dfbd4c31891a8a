-- SUMMARY: A workbook: its sheets in order and its defined names, with all-or-nothing writes.
import Spreadsheet.DefinedName
import Spreadsheet.Reference.A1
import Spreadsheet.Sheet

/-! # Workbooks

A workbook is a list of sheets and a collection of names. Sheets are found by name without
regard to the case of ASCII letters, and references are kept with the stored spelling. A
write that is refused gives no workbook, so it changes nothing.
-/

namespace Spreadsheet

namespace SheetName

def maxLength : Nat := 31

def forbidden : List Char := [':', '\\', '/', '?', '*', '[', ']']

/-- Why a sheet cannot have the name. -/
def fault? (name : String) : Option SheetNameFault :=
  let cs := name.toList
  if cs.isEmpty then some .empty
  else if maxLength < cs.length then some (.tooLong maxLength)
  else match cs.find? forbidden.contains with
    | some c => some (.forbidden c)
    | none => if cs.head? = some '\'' ∨ cs.getLast? = some '\'' then some .apostrophe else none

end SheetName

structure Workbook where
  sheets : List Sheet
  names : DefinedNames := {}

namespace Workbook

/-- A workbook without sheets. -/
def empty : Workbook := { sheets := [] }

/-- A workbook with one sheet. -/
def new : Workbook := { sheets := [{ name := "Sheet1" }] }

/-! ## Sheets -/

def sheet? (book : Workbook) (name : String) : Option Sheet :=
  book.sheets.find? fun sheet => Text.equalIgnoringCase sheet.name name

/-- The stored spelling of a sheet's name. -/
def sheetName? (book : Workbook) (name : String) : Option String :=
  (book.sheet? name).map Sheet.name

def hasSheet (book : Workbook) (name : String) : Bool := (book.sheet? name).isSome

/-- Adds an empty sheet after the others. -/
def addSheet (book : Workbook) (name : String) : Except Fault Workbook := do
  if let some cause := SheetName.fault? name then throw (.sheetName cause)
  if book.hasSheet name then throw (.duplicateSheet name)
  return { book with sheets := book.sheets ++ [{ name }] }

/-- The first sheet, where references that name no sheet belong. -/
def firstSheet (book : Workbook) : Except Fault String :=
  match book.sheets with
  | sheet :: _ => .ok sheet.name
  | [] => .error .noSheets

/-- The stored spelling of the name of a sheet that has to exist. -/
def findSheet (book : Workbook) (name : String) : Except Fault String :=
  match book.sheetName? name with
  | some stored => .ok stored
  | none => .error (.noSuchSheet name)

def extent? (book : Workbook) (sheet : String) : Option (Nat × Nat) :=
  (book.sheet? sheet).bind Sheet.extent?

/-! ## Cells -/

/-- The content of a cell, empty if nothing is stored. The cell has to lie in the grid of a
sheet of the workbook. -/
def read (book : Workbook) (cell : CellAddress) : Except Fault CellContent := do
  cell.checkBounds
  match book.sheet? cell.sheet with
  | some sheet => return (sheet.get? cell.row cell.col).getD {}
  | none => throw (.noSuchSheet cell.sheet)

/-- Applies `f` to the sheet of the name. -/
def updateSheet (name : String) (f : Sheet → Sheet) : List Sheet → List Sheet
  | [] => []
  | sheet :: sheets =>
    if Text.equalIgnoringCase sheet.name name then f sheet :: sheets
    else sheet :: updateSheet name f sheets

/-- Stores the content of a cell. -/
def write (book : Workbook) (cell : CellAddress) (content : CellContent) :
    Except Fault Workbook := do
  cell.checkBounds
  if !book.hasSheet cell.sheet then throw (.noSuchSheet cell.sheet)
  return { book with
    sheets := updateSheet cell.sheet (·.put cell.row cell.col content) book.sheets }

/-- The cell written by reference text, on the first sheet unless it names another. -/
def resolve (book : Workbook) (place : String) : Except Fault CellAddress := do
  let cell ← CellAddress.ofText place (← book.firstSheet)
  return { cell with sheet := ← book.findSheet cell.sheet }

def setValue (book : Workbook) (place : String) (value : Scalar) : Except Fault Workbook := do
  book.write (← book.resolve place) (.ofValue value)

def setFormula (book : Workbook) (place entered : String) : Except Fault Workbook := do
  book.write (← book.resolve place) (.ofFormula entered)

/-- Every cell with a formula, sheet by sheet and row by row. -/
def formulaCells (book : Workbook) : List CellAddress :=
  book.sheets.flatMap fun sheet =>
    sheet.formulas.map fun ((row, col), _) => ⟨sheet.name, row, col⟩

/-! ## Names -/

/-- The area that a name stands for. -/
def nameTarget? (book : Workbook) (name : String) : Option Area :=
  (book.names.get? name).map DefinedName.target

/-- Defines a name for the area written by `refersTo`. -/
def defineName (book : Workbook) (name refersTo : String) : Except Fault Workbook := do
  let area ← Area.ofText refersTo (← book.firstSheet)
  let sheet ← book.findSheet area.sheet
  let names ← book.names.define { name, target := { area with sheet } }
  return { book with names }

def removeName (book : Workbook) (name : String) : Workbook :=
  { book with names := book.names.erase name }

end Workbook

end Spreadsheet
