-- SUMMARY: The limits of a sheet's grid, and column numbers written in letters.
import Spreadsheet.Fault
import Spreadsheet.Text.Split

/-! # The grid

Rows and columns count from one. A column is also written in letters, `A` to `Z`, then
`AA` to `ZZ` and on to `XFD`.
-/

namespace Spreadsheet.Grid

open Text

def maxRows : Nat := 1048576

def maxCols : Nat := 16384

def HasRow (row : Int) : Prop := 1 ≤ row ∧ row ≤ maxRows

def HasCol (col : Int) : Prop := 1 ≤ col ∧ col ≤ maxCols

instance (row : Int) : Decidable (HasRow row) := inferInstanceAs (Decidable (_ ∧ _))

instance (col : Int) : Decidable (HasCol col) := inferInstanceAs (Decidable (_ ∧ _))

/-- The row number written by ASCII digits, if it lies in the grid. -/
def readRow? (cs : List Char) : Option Nat :=
  (readNat? cs).filter fun row => HasRow row

/-- The column number written by ASCII digits, if it lies in the grid. -/
def readCol? (cs : List Char) : Option Nat :=
  (readNat? cs).filter fun col => HasCol col

/-! ## Column letters -/

/-- The letters of column `col`, which counts from one. Column zero has none. -/
def columnLetters : Nat → List Char
  | 0 => []
  | n + 1 => columnLetters (n / 26) ++ [Char.ofNat ('A'.toNat + n % 26)]

/-- The place of an ASCII letter in the alphabet, counting from one. -/
def letterNumber (c : Char) : Nat := c.toUpper.toNat - 'A'.toNat + 1

/-- The column number of letters read from the left, `n` being that of the letters before. -/
def columnFrom (n : Nat) : List Char → Except ReferenceFault Nat
  | [] => .ok n
  | c :: cs =>
    if c.isAlpha then columnFrom (26 * n + letterNumber c) cs
    else .error (.invalidColumnLetter c)

/-- The column number of letters in either case. Text of more than three bytes is out of
range whatever its letters are. -/
def columnOfLetters (cs : List Char) : Except ReferenceFault Nat := do
  if cs.isEmpty then throw .emptyColumn
  if 3 < byteLength cs then throw (.columnOutOfRange (String.ofList cs))
  let col ← columnFrom 0 cs
  if maxCols < col then throw (.columnOutOfRange (String.ofList cs))
  return col

end Spreadsheet.Grid
