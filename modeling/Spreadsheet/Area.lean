-- SUMMARY: Cell addresses and areas: rectangles of cells on one sheet, and what they contain.
import Spreadsheet.SheetName

/-! # Cells and areas

An area is a rectangle of cells on one sheet. Whole columns and whole rows reach across
the full grid and remember how they were written, for their text and for cutting them
down to the part of a sheet that is in use.
-/

namespace Spreadsheet

/-- One cell of a sheet. -/
structure CellAddress where
  sheet : String
  row : Nat
  col : Nat
  deriving DecidableEq, Repr, Inhabited

namespace CellAddress

def textChars (cell : CellAddress) : List Char :=
  SheetName.beforeReference cell.sheet ++ Grid.columnLetters cell.col ++
    Nat.toDigits 10 cell.row

/-- The cell's reference text, its sheet always named. -/
def text (cell : CellAddress) : String := String.ofList cell.textChars

/-- The address lies in the grid and names a sheet. -/
def checkBounds (cell : CellAddress) : Except Fault Unit := do
  if cell.sheet.isEmpty then throw (.reference .emptySheet)
  if ¬ (Grid.HasRow cell.row ∧ Grid.HasCol cell.col) then throw (.outOfBounds cell.row cell.col)

def coord (cell : CellAddress) : Coord := { row := cell.row, col := cell.col }

end CellAddress

/-- The cell of a sheet at a coordinate. -/
def Coord.on (coord : Coord) (sheet : String) : CellAddress := ⟨sheet, coord.row, coord.col⟩

/-- How an area was written. -/
inductive AreaKind where
  /-- A block such as `A1:B2`, or a single cell. -/
  | cells
  /-- Whole columns such as `A:B`. -/
  | columns
  /-- Whole rows such as `1:2`. -/
  | rows
  deriving DecidableEq, Repr, Inhabited

/-- A rectangle of cells, both corners included. -/
structure Area where
  sheet : String
  top : Nat
  left : Nat
  bottom : Nat
  right : Nat
  kind : AreaKind := .cells
  deriving DecidableEq, Repr, Inhabited

namespace Area

/-! ## Making areas -/

/-- The block with two opposite corners, given in either order. -/
def ofCorners (sheet : String) (row₁ col₁ row₂ col₂ : Nat) : Area where
  sheet := sheet
  top := min row₁ row₂
  left := min col₁ col₂
  bottom := max row₁ row₂
  right := max col₁ col₂

def ofCell (cell : CellAddress) : Area where
  sheet := cell.sheet
  top := cell.row
  left := cell.col
  bottom := cell.row
  right := cell.col

@[simp] theorem ofCell_inj {c d : CellAddress} : ofCell c = ofCell d ↔ c = d := by
  obtain ⟨_, _, _⟩ := c
  obtain ⟨_, _, _⟩ := d
  simp only [ofCell, Area.mk.injEq, CellAddress.mk.injEq]
  grind

def wholeColumns (sheet : String) (first last : Nat) : Area :=
  { ofCorners sheet 1 first Grid.maxRows last with kind := .columns }

def wholeRows (sheet : String) (first last : Nat) : Area :=
  { ofCorners sheet first 1 last Grid.maxCols with kind := .rows }

/-! ## Size and cells -/

def topLeft (area : Area) : CellAddress := ⟨area.sheet, area.top, area.left⟩

def bottomRight (area : Area) : CellAddress := ⟨area.sheet, area.bottom, area.right⟩

/-- The number of rows. -/
def height (area : Area) : Nat := area.bottom - area.top + 1

/-- The number of columns. -/
def width (area : Area) : Nat := area.right - area.left + 1

/-- The number of cells. -/
def size (area : Area) : Nat := area.height * area.width

def isSingleCell (area : Area) : Bool := area.top == area.bottom && area.left == area.right

def contains (area : Area) (cell : CellAddress) : Bool :=
  cell.sheet == area.sheet && area.top ≤ cell.row && cell.row ≤ area.bottom &&
    area.left ≤ cell.col && cell.col ≤ area.right

/-- The cell at `index`, counting from zero along the rows. -/
def cellAt (area : Area) (index : Nat) : CellAddress :=
  ⟨area.sheet, area.top + index / area.width, area.left + index % area.width⟩

/-- The first `count` cells, row by row. -/
def firstCells (area : Area) (count : Nat) : List CellAddress :=
  (List.range (min count area.size)).map area.cellAt

/-- Every cell, row by row. -/
def cells (area : Area) : List CellAddress := area.firstCells area.size

/-! ## Text -/

/-- Reference text, the sheet always named: one cell, a block, whole columns or whole rows. -/
def textChars (area : Area) : List Char :=
  let sheet := SheetName.beforeReference area.sheet
  let columns := (Grid.columnLetters area.left, Grid.columnLetters area.right)
  let rows := (Nat.toDigits 10 area.top, Nat.toDigits 10 area.bottom)
  match area.kind with
  | .columns => sheet ++ columns.1 ++ ':' :: columns.2
  | .rows => sheet ++ rows.1 ++ ':' :: rows.2
  | .cells =>
    if area.isSingleCell then area.topLeft.textChars
    else sheet ++ columns.1 ++ rows.1 ++ ':' :: (columns.2 ++ rows.2)

def text (area : Area) : String := String.ofList area.textChars

/-! ## Areas as sets of cells -/

/-- Some cell lies in both areas. -/
def overlaps (a b : Area) : Bool :=
  a.sheet == b.sheet && a.top ≤ b.bottom && b.top ≤ a.bottom && a.left ≤ b.right &&
    b.left ≤ a.right

/-- The least area that holds both. It keeps the kind that both share. -/
def bounding (a b : Area) : Except Fault Area :=
  if a.sheet = b.sheet then
    .ok { sheet := a.sheet
          top := min a.top b.top
          left := min a.left b.left
          bottom := max a.bottom b.bottom
          right := max a.right b.right
          kind := if a.kind = b.kind then a.kind else .cells }
  else .error (.reference (.differentSheets a.text b.text))

/-- Whole columns cut after row `rows` and whole rows after column `cols`, but never to
nothing. Other areas stay as they are. -/
def clip (area : Area) (rows cols : Nat) : Area :=
  match area.kind with
  | .cells => area
  | .columns => { area with bottom := max area.top (min rows area.bottom), kind := .cells }
  | .rows => { area with right := max area.left (min cols area.right), kind := .cells }

/-- The part of the area in the first `rows` rows and `cols` columns, unless it is empty. -/
def within? (area : Area) (rows cols : Nat) : Option Area :=
  if rows < area.top ∨ cols < area.left then none
  else some { area with
    bottom := min area.bottom rows
    right := min area.right cols
    kind := .cells }

end Area

end Spreadsheet
