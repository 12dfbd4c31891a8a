-- SUMMARY: Error values: the values a formula answers when it has no better one.

/-! # Error values

An error value is an ordinary value of a cell or a formula. All but one can be written
in a formula; the marker of a circular reference only arises from evaluation.
-/

namespace Spreadsheet

inductive ErrorValue where
  | null
  | divisionByZero
  | value
  | reference
  | name
  | number
  | notAvailable
  /-- The cell was asked for while it was being computed. -/
  | circular
  deriving DecidableEq, Repr, Inhabited

namespace ErrorValue

def text : ErrorValue → String
  | .null => "#NULL!"
  | .divisionByZero => "#DIV/0!"
  | .value => "#VALUE!"
  | .reference => "#REF!"
  | .name => "#NAME?"
  | .number => "#NUM!"
  | .notAvailable => "#N/A"
  | .circular => "#CIRCULAR!"

/-- The error values that can be written in a formula. -/
def literals : List ErrorValue :=
  [.null, .divisionByZero, .value, .reference, .name, .number, .notAvailable]

/-- The error value written by `s`, in either case. -/
def ofText? (s : String) : Option ErrorValue :=
  literals.find? fun e => e.text.toList == s.toList.map Char.toUpper

theorem ofText?_text {e : ErrorValue} (h : e ≠ .circular) : ofText? e.text = some e := by
  cases e <;> first | rfl | contradiction

end ErrorValue

end Spreadsheet
