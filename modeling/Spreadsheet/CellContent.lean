-- SUMMARY: What is stored for one cell: a value and the text of a formula.
import Spreadsheet.Scalar

/-! # Cell content

A cell stores a value, a formula or both. The value next to a formula is whatever was
stored with it; it is no result of the formula.
-/

namespace Spreadsheet

structure CellContent where
  value : Scalar := .blank
  /-- The text of the formula, without the `=` in front. -/
  formula : Option String := none
  deriving DecidableEq, Repr, Inhabited

namespace CellContent

/-- Text without the blanks around it and without one `=` in front. -/
def formulaBody (cs : List Char) : List Char :=
  match Text.trimChars cs with
  | '=' :: cs => cs
  | cs => cs

def ofValue (value : Scalar) : CellContent := { value }

/-- A formula as it was entered, the `=` in front being optional. -/
def ofFormula (entered : String) : CellContent :=
  { formula := some (String.ofList (formulaBody entered.toList)) }

def isFormula (content : CellContent) : Bool := content.formula.isSome

def isEmpty (content : CellContent) : Bool := content.formula.isNone && content.value.isBlank

end CellContent

end Spreadsheet
