-- SUMMARY: The tokens of formula text.
import Spreadsheet.Area
import Spreadsheet.Formula.Malformed
import Spreadsheet.Text.Case

/-! # Tokens

Formula text is cut into tokens that tile it: every character belongs to one token, blanks
included. A reference, with its sheet name and both of its corners, is a single token.
`Token.ofText` scans from the left; `lexeme` tells the kind of the first token and how far
it reaches.
-/

namespace Spreadsheet.Formula

open Text

inductive TokenKind where
  | number
  | text
  | bool
  | error
  /-- A cell or an area without a sheet name. -/
  | reference
  /-- A cell or an area with a sheet name. -/
  | sheetReference
  | name
  /-- A name with a parenthesis right behind it. -/
  | function
  | operator
  | openParen
  | closeParen
  /-- A comma or a semicolon. -/
  | separator
  | openBrace
  | closeBrace
  | blank
  deriving DecidableEq, Repr, Inhabited

structure Token where
  kind : TokenKind
  text : String
  /-- Where the token starts, in bytes. -/
  position : Nat
  deriving DecidableEq, Repr, Inhabited

def Token.isOperator (token : Token) (symbol : String) : Bool :=
  token.kind == .operator && token.text == symbol

def Token.isSeparator (token : Token) (symbol : String) : Bool :=
  token.kind == .separator && token.text == symbol

namespace Token

/-! ## References -/

/-- One side of a reference. -/
inductive Side where
  | cell
  | column
  | row
  deriving DecidableEq, Repr

def markLength : List Char → Nat
  | '$' :: _ => 1
  | _ => 0

/-- The length and the sort of the cell, column or row at the front. -/
def side? (cs : List Char) : Option (Nat × Side) :=
  let mark₁ := markLength cs
  let letters := (cs.drop mark₁).takeWhile Char.isAlpha
  let before := mark₁ + letters.length
  let mark₂ := markLength (cs.drop before)
  let digits := (cs.drop (before + mark₂)).takeWhile Char.isDigit
  let inGrid := (Grid.readRow? digits).isSome
  if letters.isEmpty then
    if inGrid then some (before + mark₂ + digits.length, .row) else none
  else if !(Grid.columnOfLetters letters).isOk then none
  else if digits.isEmpty then if mark₂ = 0 then some (before, .column) else none
  else if inGrid then some (before + mark₂ + digits.length, .cell)
  else none

/-- The length of text up to the apostrophe that closes a quoted name. -/
def quotedLength? : List Char → Option Nat
  | [] => none
  | '\'' :: '\'' :: cs => (quotedLength? cs).map (· + 2)
  | '\'' :: _ => some 0
  | _ :: cs => (quotedLength? cs).map (· + 1)

/-- The length of the sheet name at the front and of the `!` behind it. -/
def sheetLength? (cs : List Char) : Option Nat :=
  let length? := match cs with
    | '\'' :: cs => (quotedLength? cs).bind fun n => if n = 0 then none else some (n + 2)
    | _ =>
      let n := (cs.takeWhile isWordChar).length
      if n = 0 then none else some n
  length?.bind fun n => if (cs.drop n).head? = some '!' then some (n + 1) else none

/-- Whether the text goes on a reference in front of it, so that it was none. -/
def continuesName : List Char → Bool
  | c :: _ => isWordChar c || c == '(' || c == '!' || c == '$'
  | [] => false

/-- How far a second corner reaches: a colon, the sheet name if the first corner has one, and a
side of the same sort. -/
def secondCorner? (cs : List Char) (withSheet : Bool) (first : Side) : Option Nat :=
  match cs with
  | ':' :: cs =>
    let sheet := if withSheet then (sheetLength? cs).getD 0 else 0
    (side? (cs.drop sheet)).bind fun (n, second) =>
      if second = first && !continuesName (cs.drop (sheet + n)) then some (1 + sheet + n) else none
  | _ => none

/-- The kind and the length of the reference at the front: two corners of one sort, or a
single cell. -/
def reference? (cs : List Char) : Option (TokenKind × Nat) :=
  let sheet? := sheetLength? cs
  let start := sheet?.getD 0
  let kind := if sheet?.isSome then TokenKind.sheetReference else .reference
  (side? (cs.drop start)).bind fun (n, first) =>
    let one := start + n
    let length? := match secondCorner? (cs.drop one) sheet?.isSome first with
      | some m => some (one + m)
      | none => if first = Side.cell then some one else none
    length?.bind fun length => if continuesName (cs.drop length) then none else some (kind, length)

/-! ## Other tokens -/

/-- The length of text up to and with the quotation mark that closes a text literal. -/
def textLength? : List Char → Option Nat
  | [] => none
  | '"' :: '"' :: cs => (textLength? cs).map (· + 2)
  | '"' :: _ => some 1
  | _ :: cs => (textLength? cs).map (· + 1)

/-- The length of the error literal at the front, in either case. -/
def errorLength? (cs : List Char) : Option Nat :=
  (ErrorValue.literals.find? fun e =>
      e.text.toList == (cs.take e.text.length).map Char.toUpper).map (·.text.length)

def exponentLength (cs : List Char) : Nat :=
  match cs with
  | 'e' :: cs | 'E' :: cs =>
    let sign := match cs with
      | '+' :: _ | '-' :: _ => 1
      | _ => 0
    let digits := ((cs.drop sign).takeWhile Char.isDigit).length
    if digits = 0 then 0 else 1 + sign + digits
  | _ => 0

/-- The length of the digits, the point and the power of ten at the front. -/
def numberLength (cs : List Char) : Nat :=
  let whole := (cs.takeWhile Char.isDigit).length
  let fraction := match cs.drop whole with
    | '.' :: cs => 1 + (cs.takeWhile Char.isDigit).length
    | _ => 0
  whole + fraction + exponentLength (cs.drop (whole + fraction))

/-- What a name at the front is, of which `cs` is the text and `after` what follows it. -/
def nameKind (cs after : List Char) : Except (Nat × Cause) TokenKind :=
  let name := String.ofList cs
  match after with
  | '(' :: _ => .ok .function
  | '!' :: _ => .error (byteLength cs, .noReferenceAfterSheet name)
  | _ =>
    if equalIgnoringCase name "TRUE" || equalIgnoringCase name "FALSE" then .ok .bool
    else .ok .name

/-- The kind and the length of the first token, or why there is none and how many bytes on. -/
def lexeme (cs : List Char) : Except (Nat × Cause) (TokenKind × Nat) :=
  match cs with
  | [] => .error (0, .empty)
  | c :: rest =>
    if isBlank c then .ok (.blank, (cs.takeWhile isBlank).length)
    else match c with
    | '"' =>
      match textLength? rest with
      | some n => .ok (.text, n + 1)
      | none => .error (0, .unterminatedText)
    | '#' =>
      match errorLength? cs with
      | some n => .ok (.error, n)
      | none => .error (0, .unknownError)
    | '\'' =>
      match reference? cs with
      | some found => .ok found
      | none => .error (0, .noReferenceAfterQuoted)
    | '(' => .ok (.openParen, 1)
    | ')' => .ok (.closeParen, 1)
    | '\x7b' => .ok (.openBrace, 1)
    | '\x7d' => .ok (.closeBrace, 1)
    | ',' | ';' => .ok (.separator, 1)
    | '+' | '-' | '*' | '/' | '^' | '&' | '%' | '=' | ':' => .ok (.operator, 1)
    | '<' =>
      match rest with
      | '=' :: _ | '>' :: _ => .ok (.operator, 2)
      | _ => .ok (.operator, 1)
    | '>' =>
      match rest with
      | '=' :: _ => .ok (.operator, 2)
      | _ => .ok (.operator, 1)
    | _ =>
      if c.isDigit || c == '.' then
        match reference? cs with
        | some found => .ok found
        | none =>
          let n := numberLength cs
          if c == '.' && n == 1 then .error (0, .unexpectedCharacter '.') else .ok (.number, n)
      else if startsWord c || c == '$' then
        match reference? cs with
        | some found => .ok found
        | none =>
          if c == '$' then .error (0, .badReference)
          else
            let tail := rest.takeWhile isWordChar
            (nameKind (c :: tail) (rest.drop tail.length)).map (·, 1 + tail.length)
      else .error (0, .unexpectedCharacter c)

/-! ## Text as tokens -/

/-- The tokens of text whose first character is at `position`. -/
def ofCharsFrom (position : Nat) : List Char → Except Malformed (List Token)
  | [] => .ok []
  | c :: cs =>
    match lexeme (c :: cs) with
    | .error (offset, cause) => .error ⟨position + offset, cause⟩
    | .ok (kind, n) =>
      let text := c :: cs.take (n - 1)
      (ofCharsFrom (position + byteLength text) (cs.drop (n - 1))).map fun tokens =>
        ⟨kind, String.ofList text, position⟩ :: tokens
termination_by cs => cs.length
decreasing_by rw [List.length_drop, List.length_cons]; omega

def ofText (s : String) : Except Malformed (List Token) := ofCharsFrom 0 s.toList

end Token

end Spreadsheet.Formula
