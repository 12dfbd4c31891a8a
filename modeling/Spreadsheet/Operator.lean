-- SUMMARY: The operators of formulas and what they do to values.
import Spreadsheet.Value

/-! # Operators

Operators act on scalars. On tables they act cell by cell: a scalar meets every cell, a
single row or column repeats over the other operand, and a place that one operand does not
have is not available.
-/

namespace Spreadsheet

inductive Arithmetic where
  | add
  | subtract
  | multiply
  | divide
  | power
  deriving DecidableEq, Repr

inductive Comparison where
  | equal
  | notEqual
  | less
  | lessEqual
  | greater
  | greaterEqual
  deriving DecidableEq, Repr

inductive BinaryOp where
  | arithmetic (op : Arithmetic)
  | comparison (op : Comparison)
  /-- Joins two texts. -/
  | concat
  /-- The least area around two references. -/
  | range
  deriving DecidableEq, Repr

inductive UnaryOp where
  | negate
  | percent
  deriving DecidableEq, Repr

namespace Arithmetic

def symbol : Arithmetic → String
  | .add => "+"
  | .subtract => "-"
  | .multiply => "*"
  | .divide => "/"
  | .power => "^"

/-- Nothing is divided by zero, and zero is raised to positive powers only. -/
def apply (op : Arithmetic) (x y : Float) : Scalar :=
  match op with
  | .add => .ofResult (x + y)
  | .subtract => .ofResult (x - y)
  | .multiply => .ofResult (x * y)
  | .divide => if y == 0 then .error .divisionByZero else .ofResult (x / y)
  | .power =>
    if x == 0 && y == 0 then .error .number
    else if x == 0 && y < 0 then .error .divisionByZero
    else .ofResult (Float.pow x y)

end Arithmetic

namespace Comparison

def symbol : Comparison → String
  | .equal => "="
  | .notEqual => "<>"
  | .less => "<"
  | .lessEqual => "<="
  | .greater => ">"
  | .greaterEqual => ">="

def holds : Comparison → Ordering → Bool
  | .equal, o => o == .eq
  | .notEqual, o => o != .eq
  | .less, o => o == .lt
  | .lessEqual, o => o != .gt
  | .greater, o => o == .gt
  | .greaterEqual, o => o != .lt

end Comparison

namespace BinaryOp

def symbol : BinaryOp → String
  | .arithmetic op => op.symbol
  | .comparison op => op.symbol
  | .concat => "&"
  | .range => ":"

/-- The operator on two scalars. An error on the left wins over one on the right. -/
def onScalars (op : BinaryOp) (l r : Scalar) : Scalar :=
  match op with
  | .arithmetic op =>
    match l.toNumber, r.toNumber with
    | .ok x, .ok y => op.apply x y
    | .error e, _ => .error e
    | _, .error e => .error e
  | .comparison op =>
    match l.error?, r.error? with
    | some e, _ => .error e
    | none, some e => .error e
    | none, none => .bool (op.holds (l.compare r))
  | .concat =>
    match l.toText, r.toText with
    | .ok s, .ok t => .text (s ++ t)
    | .error e, _ => .error e
    | _, .error e => .error e
  | .range => .error .value

/-- The operator on two values, cell by cell if one of them is a table. The range operator
needs references and has no meaning on values. -/
def onValues (op : BinaryOp) : Value → Value → Value
  | .scalar l, .scalar r => .scalar (op.onScalars l r)
  | .table l, .scalar r => .table (l.map (op.onScalars · r))
  | .scalar l, .table r => .table (r.map (op.onScalars l))
  | .table l, .table r =>
    .table (.ofFn (max l.rows r.rows) (max l.cols r.cols) fun row col =>
      match l.spread? row col, r.spread? row col with
      | some a, some b => op.onScalars a b
      | _, _ => .error .notAvailable)

end BinaryOp

namespace UnaryOp

def onNumber : UnaryOp → Float → Float
  | .negate, x => -x
  | .percent, x => x / 100

def onScalar (op : UnaryOp) (s : Scalar) : Scalar :=
  match s.toNumber with
  | .ok x => .number (op.onNumber x)
  | .error e => .error e

def onValue (op : UnaryOp) (v : Value) : Value := v.map op.onScalar

end UnaryOp

end Spreadsheet
