-- SUMMARY: Scalars: what one cell can hold, their coercions, text and order.
import Spreadsheet.ErrorValue
import Spreadsheet.Number
import Spreadsheet.Text.Case

/-! # Scalars

A scalar is what one cell holds: nothing, a boolean, a number, text or an error value.
Where a number, a boolean or text is wanted the others are converted if they can be; a
blank is zero, `FALSE` or empty text, and an error value stays itself.
-/

namespace Spreadsheet

inductive Scalar where
  | blank
  | bool (b : Bool)
  | number (x : Float)
  | text (s : String)
  | error (e : ErrorValue)
  deriving DecidableEq, Repr, Inhabited

namespace Scalar

def isBlank : Scalar → Bool
  | .blank => true
  | _ => false

def error? : Scalar → Option ErrorValue
  | .error e => some e
  | _ => none

def isError (s : Scalar) : Bool := s.error?.isSome

/-- A computed number; one that is not finite is an error. -/
def ofResult (x : Float) : Scalar := if x.isFinite then .number x else .error .number

def boolText (b : Bool) : String := if b then "TRUE" else "FALSE"

/-! ## Coercions -/

def toNumber : Scalar → Except ErrorValue Float
  | .blank => .ok 0
  | .bool b => .ok (if b then 1 else 0)
  | .number x => .ok x
  | .text s =>
    match Number.ofText? s with
    | some x => .ok x
    | none => .error .value
  | .error e => .error e

/-- Text is a boolean only when it spells one, in either case. -/
def toBool : Scalar → Except ErrorValue Bool
  | .blank => .ok false
  | .bool b => .ok b
  | .number x => .ok (x != 0)
  | .text s =>
    if Text.equalIgnoringCase s "TRUE" then .ok true
    else if Text.equalIgnoringCase s "FALSE" then .ok false
    else .error .value
  | .error e => .error e

def toText : Scalar → Except ErrorValue String
  | .blank => .ok ""
  | .bool b => .ok (boolText b)
  | .number x => .ok (Number.text x)
  | .text s => .ok s
  | .error e => .error e

/-! ## Text -/

/-- How the scalar is shown as a result. -/
def shown : Scalar → String
  | .blank => ""
  | .bool b => boolText b
  | .number x => Number.text x
  | .text s => s
  | .error e => e.text

/-- How the scalar is shown as the raw content of a cell: numbers keep all their digits. -/
def raw : Scalar → String
  | .number x => Number.plainText x
  | s => s.shown

/-- The name of the scalar's type. -/
def typeName : Scalar → String
  | .blank => "empty"
  | .bool _ => "boolean"
  | .number _ => "number"
  | .text _ => "text"
  | .error _ => "error"

/-- The number of a cell that holds one or a boolean; its text is not read. -/
def number? : Scalar → Option Float
  | .number x => some x
  | .bool b => some (if b then 1 else 0)
  | _ => none

/-! ## Order -/

/-- Numbers come before text and text before booleans. -/
def rank : Scalar → Nat
  | .blank | .number _ => 0
  | .text _ => 1
  | .bool _ => 2
  | .error _ => 3

def compareNumbers (x y : Float) : Ordering :=
  if Number.equal x y then .eq else if x < y then .lt else if y < x then .gt else .eq

/-- The order that comparisons go by. Numbers within the tolerance are equal, text is compared
in lower case, and a blank takes the zero of the other side's type. -/
def compare : Scalar → Scalar → Ordering
  | .blank, .blank => .eq
  | .blank, .number y => compareNumbers 0 y
  | .number x, .blank => compareNumbers x 0
  | .blank, .text t => Ord.compare "" t
  | .text s, .blank => Ord.compare s ""
  | .blank, .bool b => Ord.compare false b
  | .bool a, .blank => Ord.compare a false
  | .number x, .number y => compareNumbers x y
  | .text s, .text t => Ord.compare (Text.lower s) (Text.lower t)
  | .bool a, .bool b => Ord.compare a b
  | s, t => Ord.compare s.rank t.rank

end Scalar

end Spreadsheet
