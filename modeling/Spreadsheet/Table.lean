-- SUMMARY: Tables: rectangular blocks of scalars, their parts and their text.
import Spreadsheet.Scalar

/-! # Tables

A table is a rectangle of scalars, kept row by row. Rows and columns of a table count from
zero.
-/

namespace Spreadsheet

structure Table where
  rows : Nat
  cols : Nat
  cells : Array Scalar
  deriving DecidableEq, Repr, Inhabited

namespace Table

/-- At least one row and one column, and a cell for each place. -/
def Valid (t : Table) : Prop := 0 < t.rows ∧ 0 < t.cols ∧ t.cells.size = t.rows * t.cols

instance (t : Table) : Decidable t.Valid := inferInstanceAs (Decidable (_ ∧ _))

/-! ## Making tables -/

/-- The table of some rows, unless there are none, they are empty or their lengths differ. -/
def ofRows? : List (List Scalar) → Option Table
  | [] => none
  | row :: rows =>
    if row.isEmpty || rows.any (·.length != row.length) then none
    else some ⟨rows.length + 1, row.length, (row :: rows).flatten.toArray⟩

def ofFn (rows cols : Nat) (f : Nat → Nat → Scalar) : Table where
  rows := rows
  cols := cols
  cells := Array.ofFn (n := rows * cols) fun i => f (i / cols) (i % cols)

def single (s : Scalar) : Table := ⟨1, 1, #[s]⟩

def map (f : Scalar → Scalar) (t : Table) : Table := { t with cells := t.cells.map f }

/-! ## Parts -/

def get? (t : Table) (row col : Nat) : Option Scalar :=
  if row < t.rows ∧ col < t.cols then t.cells[row * t.cols + col]? else none

/-- The first cell, which stands for the table where one scalar is wanted. -/
def topLeft (t : Table) : Scalar := t.cells[0]?.getD (.error .value)

/-- A row as a table of its own. -/
def row? (t : Table) (row : Nat) : Option Table :=
  if row < t.rows then some (ofFn 1 t.cols fun _ col => (t.get? row col).getD .blank) else none

/-- A column as a table of its own. -/
def column? (t : Table) (col : Nat) : Option Table :=
  if col < t.cols then some (ofFn t.rows 1 fun row _ => (t.get? row col).getD .blank) else none

/-- The cell at a place of a larger table: a single row repeats downwards and a single column
to the right. -/
def spread? (t : Table) (row col : Nat) : Option Scalar :=
  t.get? (if t.rows = 1 then 0 else row) (if t.cols = 1 then 0 else col)

def toRows (t : Table) : List (List Scalar) :=
  (List.range t.rows).map fun row =>
    (List.range t.cols).map fun col => (t.get? row col).getD .blank

/-! ## Text -/

/-- Text between quotation marks, one inside it written twice. -/
def quoted (s : String) : String :=
  String.ofList ('"' :: (s.toList.flatMap fun c => if c = '"' then ['"', '"'] else [c]) ++ ['"'])

/-- A scalar as it stands in the text of a table. -/
def shownCell : Scalar → String
  | .text s => quoted s
  | s => s.shown

/-- The table between braces, with a semicolon between rows and a comma between cells. -/
def shown (t : Table) : String :=
  let rows := t.toRows.map fun row => ",".intercalate (row.map shownCell)
  "\x7b" ++ ";".intercalate rows ++ "\x7d"

end Table

end Spreadsheet
