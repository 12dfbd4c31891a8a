-- SUMMARY: Coordinates as written in a formula, with their `$` marks, and their A1 text.
import Spreadsheet.Grid
import Spreadsheet.Text.Blank

/-! # Coordinates

A coordinate is a row and a column without a sheet. The `$` marks are kept as written
and mean nothing to evaluation.
-/

namespace Spreadsheet

open Text

structure Coord where
  row : Nat
  col : Nat
  rowAbsolute : Bool := false
  colAbsolute : Bool := false
  deriving DecidableEq, Repr, Inhabited

namespace Coord

/-- The letters and digits of the coordinate, each after its mark if it has one. -/
def textChars (coord : Coord) : List Char :=
  (if coord.colAbsolute then ['$'] else []) ++ Grid.columnLetters coord.col ++
    (if coord.rowAbsolute then ['$'] else []) ++ Nat.toDigits 10 coord.row

def text (coord : Coord) : String := String.ofList coord.textChars

/-- Whether text starts with `$`, and the text after it. -/
def takeMark : List Char → Bool × List Char
  | '$' :: cs => (true, cs)
  | cs => (false, cs)

/-- The coordinate written by `cs` in A1 style, blanks around it ignored. -/
def ofChars (cs : List Char) : Except ReferenceFault Coord := do
  let cs := trimChars cs
  if cs.isEmpty then throw .emptyAddress
  let (colAbsolute, cs₁) := takeMark cs
  let letters := cs₁.takeWhile Char.isAlpha
  if letters.isEmpty then throw (.noColumnLetters (String.ofList cs))
  let col ← Grid.columnOfLetters letters
  let (rowAbsolute, digits) := takeMark (cs₁.dropWhile Char.isAlpha)
  match Grid.readRow? digits with
  | some row => return { row, col, rowAbsolute, colAbsolute }
  | none => throw (.invalidRow (String.ofList cs))

def ofText (s : String) : Except ReferenceFault Coord := ofChars s.toList

/-- Whether text reads as a coordinate in A1 style. -/
def isText (cs : List Char) : Bool := (ofChars cs).isOk

/-- The corners of the rectangle with corners `a` and `b`: least row and column first. The
first corner keeps the marks of `a` and the second those of `b`. -/
def corners (a b : Coord) : Coord × Coord :=
  ({ a with row := min a.row b.row, col := min a.col b.col },
    { b with row := max a.row b.row, col := max a.col b.col })

end Coord

end Spreadsheet
