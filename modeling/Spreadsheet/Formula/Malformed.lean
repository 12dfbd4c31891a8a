-- SUMMARY: Why formula text is malformed, and where.
import Spreadsheet.Fault

/-! # Malformed formulas

A malformed formula is refused with a cause and a position, counted in bytes from the
start of the formula's body.
-/

namespace Spreadsheet.Formula

/-- What a reader of tokens was looking for. -/
inductive Wanted where
  | closeParen
  | openParen
  | argumentEnd
  | tableEnd
  deriving DecidableEq, Repr

inductive Cause where
  | unexpectedCharacter (c : Char)
  | unterminatedText
  | unknownError
  | noReferenceAfterQuoted
  | noReferenceAfterSheet (sheet : String)
  | badReference
  | reference (cause : ReferenceFault)
  | empty
  | trailing (token : String)
  | unexpected (token : String)
  | unexpectedEnd
  | wanted (what : Wanted) (found : Option String)
  | missingArgument
  | badNumber
  | raggedTable
  | notConstant
  deriving DecidableEq, Repr

/-- A refused formula. -/
structure Malformed where
  position : Nat
  cause : Cause
  deriving DecidableEq, Repr

def Wanted.text : Wanted → String
  | .closeParen => "')'"
  | .openParen => "'('"
  | .argumentEnd => "',' or ')'"
  | .tableEnd => "',', ';' or '\x7d' in array"

def Cause.reason : Cause → String
  | .unexpectedCharacter c => s!"unexpected character '{c}'"
  | .unterminatedText => "unterminated text literal"
  | .unknownError => "unknown error literal"
  | .noReferenceAfterQuoted => "expected a reference after quoted sheet name"
  | .noReferenceAfterSheet sheet => s!"expected a reference after sheet name '{sheet}'"
  | .badReference => "invalid reference"
  | .reference cause => (Fault.reference cause).message
  | .empty => "empty formula"
  | .trailing token => s!"unexpected '{token}' after expression"
  | .unexpected token => s!"unexpected '{token}'"
  | .unexpectedEnd => "unexpected end of formula"
  | .wanted what (some token) => s!"expected {what.text}, found '{token}'"
  | .wanted what none => s!"expected {what.text}, found end of formula"
  | .missingArgument => "missing argument"
  | .badNumber => "invalid number"
  | .raggedTable => "array rows must all have the same length"
  | .notConstant => "array constants may only hold numbers, text, booleans and errors"

def Malformed.message (m : Malformed) : String :=
  s!"Syntax error at position {m.position}: {m.cause.reason}"

end Spreadsheet.Formula
