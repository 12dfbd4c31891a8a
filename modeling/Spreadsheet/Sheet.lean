-- SUMMARY: A sheet: its name, its cells and the extent that was ever in use.
import Std.Data.TreeMap
import Spreadsheet.CellContent
import Spreadsheet.Area

/-! # Sheets

A sheet holds the cells that are not empty, in the order of their rows. It remembers the
greatest row and column ever written: clearing cells does not shrink the extent.
-/

namespace Spreadsheet

open Std

/-- Places of cells go row by row. -/
def comparePlaces : Nat × Nat → Nat × Nat → Ordering :=
  compareLex (compareOn Prod.fst) (compareOn Prod.snd)

instance : TransCmp comparePlaces := inferInstanceAs (TransCmp (compareLex _ _))

instance : LawfulEqCmp comparePlaces where
  eq_of_compare {p q} h := by
    have h : ((compare p.1 q.1).then (compare p.2 q.2)) = .eq := h
    simp only [Ordering.then_eq_eq, LawfulEqOrd.compare_eq_iff_eq] at h
    exact Prod.ext h.1 h.2

structure Sheet where
  name : String
  cells : TreeMap (Nat × Nat) CellContent comparePlaces := ∅
  /-- The greatest row ever written, zero if there is none. -/
  lastRow : Nat := 0
  /-- The greatest column ever written, zero if there is none. -/
  lastCol : Nat := 0

namespace Sheet

def get? (sheet : Sheet) (row col : Nat) : Option CellContent := sheet.cells[(row, col)]?

/-- Stores a cell. Empty content removes it. -/
def put (sheet : Sheet) (row col : Nat) (content : CellContent) : Sheet :=
  if content.isEmpty then { sheet with cells := sheet.cells.erase (row, col) }
  else { sheet with
    cells := sheet.cells.insert (row, col) content
    lastRow := max sheet.lastRow row
    lastCol := max sheet.lastCol col }

def clear (sheet : Sheet) (row col : Nat) : Sheet :=
  { sheet with cells := sheet.cells.erase (row, col) }

/-- The rows and columns up to the last ones ever written, unless nothing was. -/
def extent? (sheet : Sheet) : Option (Nat × Nat) :=
  if 0 < sheet.lastRow ∧ 0 < sheet.lastCol then some (sheet.lastRow, sheet.lastCol) else none

/-- The places and texts of the formulas, row by row. -/
def formulas (sheet : Sheet) : List ((Nat × Nat) × String) :=
  sheet.cells.toList.filterMap fun (place, content) => content.formula.map (place, ·)

/-- The content of the cell written in A1 style. -/
def cell (sheet : Sheet) (place : String) : Except Fault (Option CellContent) := do
  let coord ← (Coord.ofText place).mapError .reference
  return sheet.get? coord.row coord.col

/-- Stores content in the cell written in A1 style. -/
def putAt (sheet : Sheet) (place : String) (content : CellContent) : Except Fault Sheet := do
  let coord ← (Coord.ofText place).mapError .reference
  return sheet.put coord.row coord.col content

end Sheet

end Spreadsheet
