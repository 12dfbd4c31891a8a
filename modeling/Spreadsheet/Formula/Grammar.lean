-- SUMMARY: Reading tokens as an expression, by the precedence of operators.
import Spreadsheet.CellContent
import Spreadsheet.Formula.Expr
import Spreadsheet.Formula.Token

/-! # The grammar of formulas

From the loosest to the tightest: comparisons, joining of text, sums, products, powers,
percent signs behind, signs in front, and the range operator. Operators of one level group
to the left, powers included. Each reader takes an expression from the front of some tokens
and leaves fewer tokens than it was given.
-/

namespace Spreadsheet.Formula

open Text

/-- The levels of the binary operators, the loosest first. -/
def operatorLevels : List (List BinaryOp) := [
  [.comparison .equal, .comparison .notEqual, .comparison .less, .comparison .lessEqual,
    .comparison .greater, .comparison .greaterEqual],
  [.concat],
  [.arithmetic .add, .arithmetic .subtract],
  [.arithmetic .multiply, .arithmetic .divide],
  [.arithmetic .power]]

theorem operatorLevels_length : operatorLevels.length = 5 := rfl

/-- The operator of a level that a token is. -/
def Token.operator? (token : Token) (level : Nat) : Option BinaryOp :=
  (operatorLevels.getD level []).find? fun op => token.isOperator op.symbol

/-- What a reader takes from the front of `ts`, and the tokens behind it. -/
structure Front (α : Type) (ts : List Token) where
  taken : α
  rest : List Token
  shorter : rest.length < ts.length

/-- What a reader takes, possibly nothing, from the front of `ts`, and the tokens behind it. -/
structure Tail (α : Type) (ts : List Token) where
  taken : α
  rest : List Token
  noLonger : rest.length ≤ ts.length

namespace Grammar

/-- Where a fault at the front of `ts` is: at the first token, or at the end of the text. -/
def positionOf (finish : Nat) : List Token → Nat
  | token :: _ => token.position
  | [] => finish

/-- Reads one token of a kind. -/
def expect (finish : Nat) (kind : TokenKind) (what : Wanted) (ts : List Token) :
    Except Malformed (Front Unit ts) :=
  match ts with
  | [] => .error ⟨finish, .wanted what none⟩
  | token :: rest =>
    if token.kind = kind then .ok ⟨(), rest, by simp⟩
    else .error ⟨token.position, .wanted what (some token.text)⟩

/-! ## Operands of one token -/

/-- The text of a text literal: without its outer quotation marks, two inside standing for one. -/
def unquote : List Char → List Char
  | '"' :: '"' :: cs => '"' :: unquote cs
  | c :: cs => c :: unquote cs
  | [] => []

/-- The reference of a token: a cell, or an area if it has two corners. -/
def referenceOf (token : Token) : Except Malformed Expr :=
  let read : Except ReferenceFault Expr := do
    let (sheet, body) ← SheetName.splitCornersChars token.text.toList
    if ':' ∈ body then return .area sheet (← Reference.readCorners body)
    else return .cell sheet (← Coord.ofChars body)
  read.mapError fun cause => ⟨token.position, .reference cause⟩

/-- The constant of a token that is a number, text, a boolean or an error value. -/
def constantOf? (token : Token) : Option (Except Malformed Scalar) :=
  match token.kind with
  | .number => some <|
    match Decimal.read? token.text.toList with
    | some x => .ok (.number x)
    | none => .error ⟨token.position, .badNumber⟩
  | .text => some (.ok (.text (String.ofList (unquote (token.text.toList.drop 1).dropLast))))
  | .bool => some (.ok (.bool (equalIgnoringCase token.text "TRUE")))
  | .error => some <|
    match ErrorValue.ofText? token.text with
    | some e => .ok (.error e)
    | none => .error ⟨token.position, .unknownError⟩
  | _ => none

/-! ## Tables of constants -/

/-- Reads one constant of a table. Only a number can have a sign. -/
def constant (finish : Nat) (ts : List Token) : Except Malformed (Front Scalar ts) :=
  let fault : Malformed := ⟨positionOf finish ts, .notConstant⟩
  match ts with
  | [] => .error fault
  | sign :: rest =>
    if sign.isOperator "-" || sign.isOperator "+" then
      match rest with
      | [] => .error fault
      | token :: rest =>
        if token.kind = .number then
          match constantOf? token with
          | some (.ok (.number x)) =>
            .ok ⟨.number (if sign.isOperator "-" then -x else x), rest,
              Nat.lt_succ_of_lt (Nat.lt_succ_self _)⟩
          | some (.error m) => .error m
          | _ => .error fault
        else .error fault
    else
      match constantOf? sign with
      | some (.ok s) => .ok ⟨s, rest, by simp⟩
      | some (.error m) => .error m
      | none => .error fault

/-- Reads the constants behind the first one, up to what is no separator: those of the first
row, and the other rows. -/
def constants (finish : Nat) (ts : List Token) :
    Except Malformed (Tail (List Scalar × List (List Scalar)) ts) :=
  match ts with
  | [] => .ok ⟨([], []), [], by simp⟩
  | token :: rest => do
    if token.isSeparator "," then
      let ⟨s, rest₁, h₁⟩ ← constant finish rest
      let ⟨(row, rows), rest₂, h₂⟩ ← constants finish rest₁
      return ⟨(s :: row, rows), rest₂, by simp; omega⟩
    else if token.isSeparator ";" then
      let ⟨s, rest₁, h₁⟩ ← constant finish rest
      let ⟨(row, rows), rest₂, h₂⟩ ← constants finish rest₁
      return ⟨([], (s :: row) :: rows), rest₂, by simp; omega⟩
    else return ⟨([], []), token :: rest, by simp⟩
termination_by ts.length
decreasing_by all_goals simp; omega

/-- Reads a table behind its opening brace, which is at `position`. -/
def table (finish position : Nat) (ts : List Token) : Except Malformed (Front Table ts) := do
  let ⟨s, rest₁, h₁⟩ ← constant finish ts
  let ⟨(row, rows), rest₂, h₂⟩ ← constants finish rest₁
  let ⟨_, rest₃, h₃⟩ ← expect finish .closeBrace .tableEnd rest₂
  match Table.ofRows? ((s :: row) :: rows) with
  | some t => return ⟨t, rest₃, by omega⟩
  | none => throw ⟨position, .raggedTable⟩

/-! ## Expressions -/

/-- The percent signs at the front, each applied to what stands before it. -/
def percents (e : Expr) : (ts : List Token) → Tail Expr ts
  | [] => ⟨e, [], by simp⟩
  | token :: rest =>
    if token.isOperator "%" then
      let ⟨e, rest, h⟩ := percents (.unary .percent e) rest
      ⟨e, rest, by simp; omega⟩
    else ⟨e, token :: rest, by simp⟩

mutual

/-- Reads an expression whose operators are of the level or tighter. -/
def expr (finish : Nat) (level : Nat) (ts : List Token) : Except Malformed (Front Expr ts) := do
  if level < operatorLevels.length then
    let ⟨left, rest₁, h₁⟩ ← expr finish (level + 1) ts
    let ⟨e, rest₂, h₂⟩ ← operators finish level left rest₁
    return ⟨e, rest₂, by omega⟩
  else
    let ⟨e, rest₁, h₁⟩ ← signed finish ts
    let ⟨e, rest₂, h₂⟩ := percents e rest₁
    return ⟨e, rest₂, by omega⟩
termination_by ts.length * 16 + (4 + (5 - level))
decreasing_by
  all_goals
    have := operatorLevels_length
    omega

/-- Reads the operators of a level behind `left` and their right operands. -/
def operators (finish : Nat) (level : Nat) (left : Expr) (ts : List Token) :
    Except Malformed (Tail Expr ts) :=
  match ts with
  | [] => .ok ⟨left, [], by simp⟩
  | token :: rest =>
    match token.operator? level with
    | none => .ok ⟨left, token :: rest, by simp⟩
    | some op => do
      let ⟨right, rest₁, h₁⟩ ← expr finish (level + 1) rest
      let ⟨e, rest₂, h₂⟩ ← operators finish level (.binary op left right) rest₁
      return ⟨e, rest₂, by simp; omega⟩
termination_by ts.length * 16

/-- Reads an operand with its signs in front. A plus sign leaves no trace. -/
def signed (finish : Nat) (ts : List Token) : Except Malformed (Front Expr ts) :=
  match ts with
  | [] => .error ⟨finish, .unexpectedEnd⟩
  | token :: rest => do
    if token.isOperator "-" then
      let ⟨e, rest₁, h₁⟩ ← signed finish rest
      return ⟨.unary .negate e, rest₁, by simp; omega⟩
    else if token.isOperator "+" then
      let ⟨e, rest₁, h₁⟩ ← signed finish rest
      return ⟨e, rest₁, by simp; omega⟩
    else
      let ⟨left, rest₁, h₁⟩ ← operand finish (token :: rest)
      let ⟨e, rest₂, h₂⟩ ← ranges finish left rest₁
      return ⟨e, rest₂, by omega⟩
termination_by ts.length * 16 + 3
decreasing_by all_goals simp only [List.length_cons] at *; omega

/-- Reads the range operators behind `left` and their right operands. -/
def ranges (finish : Nat) (left : Expr) (ts : List Token) : Except Malformed (Tail Expr ts) :=
  match ts with
  | [] => .ok ⟨left, [], by simp⟩
  | token :: rest => do
    if token.isOperator ":" then
      let ⟨right, rest₁, h₁⟩ ← operand finish rest
      let ⟨e, rest₂, h₂⟩ ← ranges finish (.binary .range left right) rest₁
      return ⟨e, rest₂, by simp; omega⟩
    else return ⟨left, token :: rest, by simp⟩
termination_by ts.length * 16

/-- Reads a constant, a reference, a name, a call, a table or what stands in parentheses. -/
def operand (finish : Nat) (ts : List Token) : Except Malformed (Front Expr ts) :=
  match ts with
  | [] => .error ⟨finish, .unexpectedEnd⟩
  | token :: rest =>
    match constantOf? token with
    | some (.ok s) => .ok ⟨.literal s, rest, by simp⟩
    | some (.error m) => .error m
    | none =>
      match token.kind with
      | .reference | .sheetReference => do
        let e ← referenceOf token
        return ⟨e, rest, by simp⟩
      | .name => .ok ⟨.name token.text, rest, by simp⟩
      | .function => do
        let ⟨_, rest₁, h₁⟩ ← expect finish .openParen .openParen rest
        let ⟨arguments, rest₂, h₂⟩ ← arguments finish rest₁
        let ⟨_, rest₃, h₃⟩ ← expect finish .closeParen .argumentEnd rest₂
        return ⟨.call (upper token.text) arguments, rest₃, by simp; omega⟩
      | .openParen => do
        let ⟨first, rest₁, h₁⟩ ← expr finish 0 rest
        let ⟨others, rest₂, h₂⟩ ← items finish false rest₁
        let ⟨_, rest₃, h₃⟩ ← expect finish .closeParen .closeParen rest₂
        let e := if others.isEmpty then first else .union (first :: others)
        return ⟨e, rest₃, by simp; omega⟩
      | .openBrace => do
        let ⟨t, rest₁, h₁⟩ ← table finish token.position rest
        return ⟨.table t, rest₁, by simp; omega⟩
      | _ => .error ⟨token.position, .unexpected token.text⟩
termination_by ts.length * 16 + 2

/-- Reads the arguments of a call up to the closing parenthesis. -/
def arguments (finish : Nat) (ts : List Token) : Except Malformed (Tail (List Expr) ts) := do
  if (ts.head?.map (·.kind)) = some .closeParen then return ⟨[], ts, by simp⟩
  else
    let ⟨first, rest₁, h₁⟩ ← argument finish ts
    let ⟨others, rest₂, h₂⟩ ← items finish true rest₁
    return ⟨first :: others, rest₂, by omega⟩
termination_by ts.length * 16 + 12

/-- Reads one argument, which cannot be left out. -/
def argument (finish : Nat) (ts : List Token) : Except Malformed (Front Expr ts) :=
  match ts with
  | token :: rest =>
    if token.isSeparator "," || token.kind = .closeParen then
      .error ⟨token.position, .missingArgument⟩
    else expr finish 0 (token :: rest)
  | [] => expr finish 0 []
termination_by ts.length * 16 + 11

/-- Reads the expressions behind the first one, each behind a comma. Those of a call are
arguments. -/
def items (finish : Nat) (ofCall : Bool) (ts : List Token) :
    Except Malformed (Tail (List Expr) ts) :=
  match ts with
  | [] => .ok ⟨[], [], by simp⟩
  | token :: rest => do
    if token.isSeparator "," then
      let ⟨e, rest₁, h₁⟩ ← if ofCall then argument finish rest else expr finish 0 rest
      let ⟨others, rest₂, h₂⟩ ← items finish ofCall rest₁
      return ⟨e :: others, rest₂, by simp; omega⟩
    else return ⟨[], token :: rest, by simp⟩
termination_by ts.length * 16

end

end Grammar

/-- The expression that all the tokens make up, `finish` being the length of their text. -/
def Expr.ofTokens (finish : Nat) (ts : List Token) : Except Malformed Expr := do
  if ts.isEmpty then throw ⟨0, .empty⟩
  let front ← Grammar.expr finish 0 ts
  match front.rest with
  | [] => return front.taken
  | token :: _ => throw ⟨token.position, .trailing token.text⟩

/-- The expression of a formula's body, without the `=` in front. -/
def Expr.ofBody (body : List Char) : Except Malformed Expr := do
  let tokens ← Token.ofCharsFrom 0 body
  Expr.ofTokens (byteLength body) (tokens.filter (·.kind != .blank))

/-- The expression of a formula as it was entered, the `=` in front being optional. -/
def Expr.ofText (entered : String) : Except Malformed Expr :=
  Expr.ofBody (CellContent.formulaBody entered.toList)

end Spreadsheet.Formula
