-- SUMMARY: Values: what a formula answers, a scalar or a table of scalars.
import Spreadsheet.Table

/-! # Values

A formula answers a scalar or a table. Where a scalar is wanted a table gives its top left
cell.
-/

namespace Spreadsheet

inductive Value where
  | scalar (s : Scalar)
  | table (t : Table)
  deriving DecidableEq, Repr, Inhabited

namespace Value

@[match_pattern] abbrev blank : Value := .scalar .blank
@[match_pattern] abbrev bool (b : Bool) : Value := .scalar (.bool b)
@[match_pattern] abbrev number (x : Float) : Value := .scalar (.number x)
@[match_pattern] abbrev text (s : String) : Value := .scalar (.text s)
@[match_pattern] abbrev error (e : ErrorValue) : Value := .scalar (.error e)

def toScalar : Value → Scalar
  | .scalar s => s
  | .table t => t.topLeft

/-- The value as a table: a scalar is a table of one cell. -/
def toTable : Value → Table
  | .scalar s => .single s
  | .table t => t

def toNumber (v : Value) : Except ErrorValue Float := v.toScalar.toNumber

def toBool (v : Value) : Except ErrorValue Bool := v.toScalar.toBool

def toText (v : Value) : Except ErrorValue String := v.toScalar.toText

def isError : Value → Bool
  | .scalar s => s.isError
  | .table _ => false

def isBlank : Value → Bool
  | .scalar s => s.isBlank
  | .table _ => false

/-- Every scalar of the value, row by row. -/
def scalars : Value → List Scalar
  | .scalar s => [s]
  | .table t => t.cells.toList

/-- The error value that the value is, or the first one in it. -/
def firstError? (v : Value) : Option ErrorValue := v.scalars.findSome? Scalar.error?

/-- Applies `f` to a scalar or to every cell of a table. -/
def map (f : Scalar → Scalar) : Value → Value
  | .scalar s => .scalar (f s)
  | .table t => .table (t.map f)

def compare (v w : Value) : Ordering := v.toScalar.compare w.toScalar

def shown : Value → String
  | .scalar s => s.shown
  | .table t => t.shown

/-- The table of some rows of values, tables among them standing for their first cell. -/
def tableOfRows? (rows : List (List Value)) : Option Table :=
  Table.ofRows? (rows.map fun row => row.map toScalar)

end Value

end Spreadsheet
