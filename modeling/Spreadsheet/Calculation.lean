-- SUMMARY: Computing every formula of a workbook once, and what came of it.
import Spreadsheet.Evaluator

/-! # Calculation

A calculation evaluates every formula cell in order and counts the results. A failure is
counted and passed over unless the calculation is to stop at it. A function that gives up
ends the calculation in any case.
-/

namespace Spreadsheet

structure Statistics where
  /-- The formula cells of the workbook. -/
  formulas : Nat := 0
  /-- Those that gave a value. -/
  calculated : Nat := 0
  /-- Those whose value is an error or has one in it. -/
  errors : Nat := 0
  /-- Those whose first error is that of a circular reference. -/
  circular : Nat := 0
  /-- Those that failed. -/
  failures : Nat := 0
  deriving DecidableEq, Repr

namespace Statistics

/-- Counts a cell that gave `v`. -/
def addValue (stats : Statistics) (v : Value) : Statistics :=
  match v.firstError? with
  | none => { stats with calculated := stats.calculated + 1 }
  | some .circular => { stats with
      calculated := stats.calculated + 1
      errors := stats.errors + 1
      circular := stats.circular + 1 }
  | some _ => { stats with
      calculated := stats.calculated + 1
      errors := stats.errors + 1 }

def addFailure (stats : Statistics) : Statistics := { stats with failures := stats.failures + 1 }

end Statistics

namespace Evaluator

/-- Evaluates cells in order and adds what comes of them to `stats`. -/
def calculateCells (stopAtFailure : Bool) :
    List CellAddress → Statistics → Evaluator → Except Failure Statistics × Evaluator
  | [], stats, ev => (.ok stats, ev)
  | cell :: cells, stats, ev =>
    match ev.evaluate cell with
    | (.ok v, ev) => calculateCells stopAtFailure cells (stats.addValue v) ev
    | (.error failure, ev) =>
      if stopAtFailure || failure == .aborted then (.error failure, ev)
      else calculateCells stopAtFailure cells stats.addFailure ev

/-- Evaluates every formula cell of the workbook. -/
def calculate (ev : Evaluator) (stopAtFailure : Bool := false) :
    Except Failure Statistics × Evaluator :=
  let cells := ev.source.workbook.formulaCells
  calculateCells stopAtFailure cells { formulas := cells.length } ev

end Evaluator

/-- Evaluates every formula cell with a new evaluator. -/
def Workbook.calculate (book : Workbook) : Except Failure Statistics :=
  (Evaluator.calculate { source := { workbook := book } }).1

end Spreadsheet
