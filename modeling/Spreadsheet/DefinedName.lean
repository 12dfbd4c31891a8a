-- SUMMARY: Defined names: which words may name an area, and the collection of a workbook's names.
import Spreadsheet.Area
import Spreadsheet.Text.Case

/-! # Defined names

A defined name stands for an area. Names are looked up without regard to case and keep
the spelling they were defined with.
-/

namespace Spreadsheet

structure DefinedName where
  name : String
  target : Area
  comment : Option String := none
  deriving DecidableEq, Repr, Inhabited

namespace DefinedName

open Text

/-- What a name is found by. -/
def key (name : String) : String := upper name

/-- Why a word cannot be a name: it has to start and go on with the right characters, and to
read neither as a cell nor as a boolean. -/
def fault? (name : String) : Option NameFault :=
  match name.toList with
  | [] => some .empty
  | c :: cs =>
    if !startsWord c then some .start
    else if !cs.all isWordChar then some .character
    else if Coord.isText (c :: cs) then some .cell
    else if equalIgnoringCase name "TRUE" || equalIgnoringCase name "FALSE" then some .reserved
    else none

def check (name : String) : Except Fault Unit :=
  match fault? name with
  | some cause => .error (.definedName name cause)
  | none => .ok ()

end DefinedName

/-- A collection of names, no two with the same key. -/
structure DefinedNames where
  entries : List DefinedName := []
  deriving DecidableEq, Repr, Inhabited

namespace DefinedNames

def get? (names : DefinedNames) (name : String) : Option DefinedName :=
  names.entries.find? fun entry => DefinedName.key entry.name == DefinedName.key name

def erase (names : DefinedNames) (name : String) : DefinedNames where
  entries := names.entries.filter fun entry =>
    DefinedName.key entry.name != DefinedName.key name

/-- Adds a name that is not taken yet. -/
def define (names : DefinedNames) (entry : DefinedName) : Except Fault DefinedNames := do
  DefinedName.check entry.name
  if (names.get? entry.name).isSome then throw (.definedName entry.name .taken)
  return { entries := entry :: names.entries }

/-- Adds a name, in place of the one with its key if there is one. -/
def put (names : DefinedNames) (entry : DefinedName) : Except Fault DefinedNames := do
  DefinedName.check entry.name
  return { entries := entry :: (names.erase entry.name).entries }

def size (names : DefinedNames) : Nat := names.entries.length

end DefinedNames

end Spreadsheet
