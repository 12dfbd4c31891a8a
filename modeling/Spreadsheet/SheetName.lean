-- SUMMARY: Sheet names as written before `!`: quoting them and splitting them off a reference.
import Spreadsheet.Coord
import Spreadsheet.Text.Letter

/-! # Sheet names in references

A reference may start with the name of its sheet and `!`. A name that could be read as
something else stands between apostrophes, an apostrophe inside it written twice.
-/

namespace Spreadsheet.SheetName

open Text

/-- Whether text is `R` and `C`, each followed by any number of digits: the shape of a
reference that counts rows and columns. -/
def readsAsR1C1 : List Char → Bool
  | 'R' :: cs | 'r' :: cs =>
    match cs.dropWhile isDigit with
    | 'C' :: cs | 'c' :: cs => cs.all isDigit
    | _ => false
  | _ => false

def needsQuotes (name : List Char) : Bool :=
  (name.head?.map Char.isDigit).getD true || !name.all isWordChar || Coord.isText name ||
    readsAsR1C1 name

/-- The text with every apostrophe written twice. -/
def double : List Char → List Char
  | [] => []
  | c :: cs => if c = '\'' then '\'' :: '\'' :: double cs else c :: double cs

def quotedChars (name : List Char) : List Char :=
  if needsQuotes name then '\'' :: (double name ++ ['\'']) else name

/-- The sheet name as it stands before `!`. -/
def quoted (name : String) : String := String.ofList (quotedChars name.toList)

/-- What stands in front of a reference on the sheet. -/
def beforeReference (name : String) : List Char := quotedChars name.toList ++ ['!']

/-! ## Splitting a sheet name off -/

/-- The text up to the apostrophe that closes a quoted name, two apostrophes standing for one,
and the text after it. -/
def takeQuoted : List Char → Option (List Char × List Char)
  | [] => none
  | '\'' :: '\'' :: cs => (takeQuoted cs).map fun (name, rest) => ('\'' :: name, rest)
  | '\'' :: cs => some ([], cs)
  | c :: cs => (takeQuoted cs).map fun (name, rest) => (c :: name, rest)

/-- The sheet named in front of a reference, if there is one, and the reference. An unquoted
name ends at the last `!`. -/
def splitChars (cs : List Char) : Except ReferenceFault (Option String × List Char) :=
  let cs := trimChars cs
  let unreadable := ReferenceFault.unreadable (String.ofList cs)
  match cs with
  | '\'' :: rest =>
    match takeQuoted rest with
    | none => .error (.unterminatedSheet (String.ofList cs))
    | some (name@(_ :: _), '!' :: body) => .ok (some (String.ofList name), body)
    | some _ => .error unreadable
  | _ =>
    match splitLast? '!' cs with
    | none => .ok (none, cs)
    | some ([], _) => .error unreadable
    | some (name, body) => .ok (some (String.ofList name), body)

/-- As `splitChars`, for a reference with two corners. The second corner may repeat the sheet
name, spelled alike, and is returned without it. -/
def splitCornersChars (cs : List Char) : Except ReferenceFault (Option String × List Char) :=
  let cs := trimChars cs
  match splitFirst? ':' cs with
  | none => splitChars cs
  | some (first, second) => do
    let (sheet, first) ← splitChars first
    let (sheet', second) ← splitChars second
    if sheet'.isSome && sheet' != sheet then throw (.unreadable (String.ofList cs))
    return (sheet, first ++ ':' :: second)

end Spreadsheet.SheetName
