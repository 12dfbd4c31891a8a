-- SUMMARY: Functions that add up, count and compare the numbers of their arguments.
import Spreadsheet.Function.Definition

/-! # Aggregates

A value given directly is converted to a number. In references and tables only the cells
that are numbers count, and text, booleans and blanks are passed over.
-/

namespace Spreadsheet.Function

/-- The number of a cell in a reference or a table; text, booleans and blanks are none. -/
def cellNumber? : Scalar → Option (Except ErrorValue Float)
  | .number x => some (.ok x)
  | .error e => some (.error e)
  | .blank | .bool _ | .text _ => none

/-- The numbers of an argument. -/
def argumentNumbers : Argument → Except ErrorValue (List Float)
  | .value v => v.toNumber.map ([·])
  | .areas tables => (tables.flatMap fun t => t.cells.toList.filterMap cellNumber?).mapM id
  | .reference _ | .lazy => .ok []

/-- The numbers of all arguments; the first error wins. -/
def numbers (args : List Argument) : Except ErrorValue (List Float) :=
  (args.mapM argumentNumbers).map List.flatten

def ofNumbers (f : List Float → Scalar) (args : List Argument) : Value :=
  match numbers args with
  | .ok xs => .scalar (f xs)
  | .error e => .error e

def total (xs : List Float) : Float := xs.foldl (· + ·) 0

/-- The number that `choose` picks from all of them, zero if there are none. -/
def pick (choose : Float → Float → Float) : List Float → Scalar
  | [] => .number 0
  | x :: xs => .number (xs.foldl choose x)

/-- `SUM(number, ...)` -/
def sum : List Argument → Value := ofNumbers fun xs => .ofResult (total xs)

/-- `AVERAGE(number, ...)` -/
def average : List Argument → Value :=
  ofNumbers fun xs =>
    if xs.isEmpty then .error .divisionByZero else .ofResult (total xs / Number.ofCount xs.length)

/-- `MIN(number, ...)` -/
def min : List Argument → Value := ofNumbers (pick Number.min)

/-- `MAX(number, ...)` -/
def max : List Argument → Value := ofNumbers (pick Number.max)

/-! ## Counting -/

/-- How much of an argument counts: the value itself if `direct` holds of it, or the cells that
`cell` holds of. -/
def countIn (direct : Value → Bool) (cell : Scalar → Bool) : Argument → Nat
  | .value v => if direct v then 1 else 0
  | .areas tables => (tables.flatMap fun t => t.cells.toList).countP cell
  | .reference _ | .lazy => 0

/-- How much of all arguments counts. -/
def countWhere (direct : Value → Bool) (cell : Scalar → Bool) (args : List Argument) : Nat :=
  args.foldl (fun count arg => count + countIn direct cell arg) 0

def isNumberCell : Scalar → Bool
  | .number _ => true
  | _ => false

/-- `COUNT(value, ...)`: numbers, and values given directly that convert to one. -/
def count (args : List Argument) : Value :=
  .number <| Number.ofCount <|
    countWhere (fun v => !v.isError && v.toNumber.isOk) isNumberCell args

/-- `COUNTA(value, ...)`: whatever is not blank, errors included. -/
def countFilled (args : List Argument) : Value :=
  .number (Number.ofCount (countWhere (!·.isBlank) (!·.isBlank) args))

end Spreadsheet.Function
