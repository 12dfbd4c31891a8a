-- SUMMARY: Faults of reference text, sheets and names: their causes and their wording.
import Spreadsheet.ErrorValue

/-! # Faults

Why a reference, a sheet or a name was refused. `Fault.message` words each cause, and
`Fault.errorValue` is the error value that stands for it inside a formula.
-/

namespace Spreadsheet

/-- Why text is not a reference. -/
inductive ReferenceFault where
  | unreadable (text : String)
  | emptyAddress
  | noColumnLetters (text : String)
  | invalidRow (text : String)
  | emptyColumn
  | columnOutOfRange (letters : String)
  | invalidColumnLetter (c : Char)
  | unterminatedSheet (text : String)
  | emptySheet
  | differentSheets (left right : String)
  deriving DecidableEq, Repr

/-- Why a sheet name is refused. -/
inductive SheetNameFault where
  | empty
  | tooLong (limit : Nat)
  | forbidden (c : Char)
  | apostrophe
  deriving DecidableEq, Repr

/-- Why a defined name is refused. -/
inductive NameFault where
  | empty
  | start
  | character
  | cell
  | reserved
  | taken
  deriving DecidableEq, Repr

inductive Fault where
  | reference (cause : ReferenceFault)
  | outOfBounds (row col : Int)
  | emptySize (height width : Int)
  | noSuchSheet (name : String)
  /-- There is no first sheet for a reference that names none. -/
  | noSheets
  | sheetName (cause : SheetNameFault)
  | duplicateSheet (name : String)
  | definedName (name : String) (cause : NameFault)
  deriving DecidableEq, Repr

namespace ReferenceFault

def reason : ReferenceFault → String
  | .unreadable text => text
  | .emptyAddress => "empty address"
  | .noColumnLetters text => s!"no column letters in '{text}'"
  | .invalidRow text => s!"invalid row number in '{text}'"
  | .emptyColumn => "empty column letters"
  | .columnOutOfRange letters => s!"column '{letters}' out of range"
  | .invalidColumnLetter c => s!"invalid column letter '{c}'"
  | .unterminatedSheet text => s!"unterminated sheet name in '{text}'"
  | .emptySheet => "empty sheet name"
  | .differentSheets left right => s!"{left} and {right} are on different sheets"

end ReferenceFault

namespace SheetNameFault

def reason : SheetNameFault → String
  | .empty => "Sheet name cannot be empty"
  | .tooLong limit => s!"Sheet name too long (max {limit} characters)"
  | .forbidden c => s!"Sheet name cannot contain '{c}'"
  | .apostrophe => "Sheet name cannot start or end with an apostrophe"

end SheetNameFault

namespace NameFault

def reason (name : String) : NameFault → String
  | .empty => s!"'{name}': name cannot be empty"
  | .start => s!"'{name}': must start with a letter, '_' or '\\'"
  | .character => s!"'{name}': contains an invalid character"
  | .cell => s!"'{name}': looks like a cell reference"
  | .reserved => s!"'{name}': reserved word"
  | .taken => s!"'{name}' is already defined"

end NameFault

namespace Fault

def message : Fault → String
  | .reference cause => s!"Invalid reference: {cause.reason}"
  | .outOfBounds row col => s!"Reference out of bounds: row {row}, column {col}"
  | .emptySize height width => s!"Invalid dimension: height {height}, width {width}"
  | .noSuchSheet name => s!"Sheet not found: {name}"
  | .noSheets => "Sheet not found: (no sheets)"
  | .sheetName cause => s!"Invalid sheet name: {cause.reason}"
  | .duplicateSheet name => s!"Sheet name already exists: {name}"
  | .definedName name cause => s!"Invalid name: {cause.reason name}"

/-- The error value a formula shows for the fault. -/
def errorValue : Fault → ErrorValue
  | .outOfBounds .. => .reference
  | .emptySize .. => .value
  | .reference _ | .noSuchSheet _ | .noSheets | .sheetName _ | .duplicateSheet _
  | .definedName .. => .name

end Fault

end Spreadsheet
