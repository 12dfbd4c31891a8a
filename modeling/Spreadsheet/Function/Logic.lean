-- SUMMARY: Logical functions, and functions that tell what a value is.
import Spreadsheet.Function.Definition

/-! # Logical functions

`IF`, `IFERROR` and `IFNA` evaluate a branch only when it is taken. The functions that
tell what a value is act on every cell of a table.
-/

namespace Spreadsheet.Function

/-! ## Branches -/

/-- `IF(condition, then, [else])` -/
def ifElse (_ : Site) (args : List Argument) : Reply :=
  if (args.head?.bind Argument.bool?).getD false then .force 1 id
  else if 2 < args.length then .force 2 id
  else .value (.bool false)

/-- The first argument with the errors that `catches` holds of replaced by the second one,
which is not evaluated if there are none. -/
def replaceErrors (catches : ErrorValue → Bool) (args : List Argument) : Reply :=
  let caught (s : Scalar) : Bool := s.error?.any catches
  match (args.head?.bind Argument.value?).getD .blank with
  | .scalar s => if caught s then .force 1 id else .value (.scalar s)
  | .table t =>
    if t.cells.any caught then
      .force 1 fun v => .table (t.map fun s => if caught s then v.toScalar else s)
    else .value (.table t)

/-- `IFERROR(value, instead)` -/
def ifError (_ : Site) (args : List Argument) : Reply := replaceErrors (fun _ => true) args

/-- `IFNA(value, instead)` -/
def ifNotAvailable (_ : Site) (args : List Argument) : Reply :=
  replaceErrors (· == .notAvailable) args

/-! ## Booleans -/

/-- The boolean of a cell in a reference or a table; text and blanks are none. -/
def cellBool? : Scalar → Option (Except ErrorValue Bool)
  | .bool b => some (.ok b)
  | .number x => some (.ok (x != 0))
  | .error e => some (.error e)
  | .blank | .text _ => none

/-- The booleans of an argument. -/
def argumentBools : Argument → Except ErrorValue (List Bool)
  | .value v => v.toBool.map ([·])
  | .areas tables => (tables.flatMap fun t => t.cells.toList.filterMap cellBool?).mapM id
  | .reference _ | .lazy => .ok []

/-- The booleans of all arguments. There has to be one; the first error wins. -/
def bools (args : List Argument) : Except ErrorValue (List Bool) := do
  let bs := (← args.mapM argumentBools).flatten
  if bs.isEmpty then throw .value
  return bs

def ofBools (f : List Bool → Bool) (args : List Argument) : Value :=
  match bools args with
  | .ok bs => .bool (f bs)
  | .error e => .error e

/-- `AND(boolean, ...)` -/
def and (args : List Argument) : Value := ofBools (·.all id) args

/-- `OR(boolean, ...)` -/
def or (args : List Argument) : Value := ofBools (·.any id) args

/-- `NOT(boolean)` -/
def not (args : List Argument) : Value :=
  match args.head?.bind Argument.bool? with
  | some b => .bool !b
  | none => .error .value

/-! ## What a value is -/

/-- Tests the value of the argument, or every cell of a table. -/
def test (holds : Scalar → Bool) (args : List Argument) : Value :=
  ((args.head?.bind Argument.value?).getD .blank).map fun s => .bool (holds s)

/-- `ISBLANK(value)` -/
def isBlank : List Argument → Value := test Scalar.isBlank

/-- `ISERROR(value)` -/
def isError : List Argument → Value := test Scalar.isError

/-- `ISERR(value)`: any error but `#N/A`. -/
def isOtherError : List Argument → Value := test fun s => s.error?.any (· != .notAvailable)

/-- `ISNA(value)` -/
def isNotAvailable : List Argument → Value := test (·.error? == some .notAvailable)

/-- `ISNUMBER(value)` -/
def isNumber : List Argument → Value :=
  test fun
    | .number _ => true
    | _ => false

/-- `ISTEXT(value)` -/
def isText : List Argument → Value :=
  test fun
    | .text _ => true
    | _ => false

/-- `ISLOGICAL(value)` -/
def isBool : List Argument → Value :=
  test fun
    | .bool _ => true
    | _ => false

/-- `ISREF(value)` -/
def isReference (args : List Argument) : Value :=
  match args.head? with
  | some (.reference _) => .bool true
  | _ => .bool false

/-- `NA()` -/
def notAvailable (_ : List Argument) : Value := .error .notAvailable

end Spreadsheet.Function
