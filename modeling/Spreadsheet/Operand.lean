-- SUMMARY: References to areas, and what an expression gives where a reference is welcome.
import Spreadsheet.Area
import Spreadsheet.Value

/-! # Operands

Some expressions give a reference, which is read only where a value is wanted.
-/

namespace Spreadsheet

/-- One or more areas. Several come from a union. -/
structure Reference where
  areas : List Area
  deriving DecidableEq, Repr, Inhabited

/-- The only area of a reference that has no others. -/
def Reference.area? (r : Reference) : Option Area :=
  match r.areas with
  | [area] => some area
  | _ => none

inductive Operand where
  | reference (r : Reference)
  | value (v : Value)
  deriving DecidableEq, Repr, Inhabited

namespace Operand

@[match_pattern] abbrev error (e : ErrorValue) : Operand := .value (.error e)

abbrev ofArea (area : Area) : Operand := .reference ⟨[area]⟩

/-- The area of an operand that has to be one. -/
def area : Operand → Except ErrorValue Area
  | .reference r =>
    match r.area? with
    | some area => .ok area
    | none => .error .value
  | .error e => .error e
  | .value _ => .error .value

/-- The least area around two operands, which the range operator gives. -/
def between (left right : Operand) : Operand :=
  match left.area, right.area with
  | .ok a, .ok b =>
    match a.bounding b with
    | .ok area => .ofArea area
    | .error _ => .error .value
  | .error e, _ => .error e
  | _, .error e => .error e

end Operand

end Spreadsheet
