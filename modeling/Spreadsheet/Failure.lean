-- SUMMARY: Failures of an evaluation, which are not values of cells.
import Spreadsheet.Formula.Malformed

/-! # Failures

A failure ends an evaluation without a value. Errors that a sheet can show, such as
`#REF!`, are values and no failures.
-/

namespace Spreadsheet

inductive Failure where
  | malformed (formula : Formula.Malformed)
  /-- A call with `given` arguments of a function that takes `least` to `most`. -/
  | argumentCount (function : String) (least : Nat) (most : Option Nat) (given : Nat)
  | model (fault : Fault)
  /-- More than `limit` formulas were being computed inside each other. -/
  | tooDeep (limit : Nat)
  /-- A function gave up the call. -/
  | aborted
  deriving DecidableEq, Repr

namespace Failure

/-- How many arguments a function takes. -/
def arityText (least : Nat) : Option Nat → String
  | none => s!"at least {least}"
  | some most => if most = least then toString most else s!"{least} to {most}"

def message : Failure → String
  | .malformed formula => formula.message
  | .argumentCount function least most given =>
    s!"Wrong number of arguments for {function}: expected {arityText least most}, got {given}"
  | .model fault => s!"Model error: {fault.message}"
  | .tooDeep limit => s!"Evaluation exceeded the maximum depth of {limit} nested cells"
  | .aborted => "Evaluation aborted"

end Failure

end Spreadsheet
