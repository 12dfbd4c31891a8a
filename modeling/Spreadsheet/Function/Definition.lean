-- SUMMARY: Functions of formulas: their parameters, their arguments and what they answer.
import Spreadsheet.Failure
import Spreadsheet.Operand
import Spreadsheet.Source

/-! # Functions

A function declares how many arguments it takes and what kind each parameter is of.
Arguments are prepared by kind before the function sees them, so a function is a plain map
from prepared arguments to an answer. One that needs an argument left unevaluated asks for
it in its answer.
-/

namespace Spreadsheet

inductive ParamKind where
  /-- A value, errors included. -/
  | any
  | number
  | text
  | bool
  /-- The used cells of a reference, a table, or a single value. -/
  | areas
  /-- A reference if the argument is one, else its value. -/
  | reference
  /-- Evaluated only if the function asks for it. -/
  | lazy
  deriving DecidableEq, Repr

/-- The name of a kind. -/
def ParamKind.name : ParamKind → String
  | .any => "Any"
  | .number => "Number"
  | .text => "Text"
  | .bool => "Boolean"
  | .areas => "Areas"
  | .reference => "Reference"
  | .lazy => "Lazy"

/-- A prepared argument. -/
inductive Argument where
  | value (v : Value)
  | areas (tables : List Table)
  | reference (r : Reference)
  | lazy
  deriving DecidableEq, Repr, Inhabited

namespace Argument

def value? : Argument → Option Value
  | .value v => some v
  | _ => none

def number? : Argument → Option Float
  | .value (.number x) => some x
  | _ => none

def bool? : Argument → Option Bool
  | .value (.bool b) => some b
  | _ => none

def text? : Argument → Option String
  | .value (.text s) => some s
  | _ => none

end Argument

/-- The place a function is called from. -/
structure Site where
  source : Source
  /-- The cell whose formula is being evaluated. -/
  cell : CellAddress
  /-- How many formulas are being computed, this one included. -/
  depth : Nat

/-- The answer of a function that may need an argument left unevaluated. -/
inductive Reply where
  | value (v : Value)
  /-- The value of the argument at `index`, passed on to `resume`. -/
  | force (index : Nat) (resume : Value → Value)

inductive Implementation where
  /-- Depends on the arguments alone. -/
  | pure (f : List Argument → Value)
  /-- Depends on the place of the call, or on arguments left unevaluated. -/
  | contextual (f : Site → List Argument → Reply)
  /-- May give a reference. -/
  | reference (f : Site → List Argument → Operand)
  /-- Gives up every call. -/
  | abort

def Implementation.needsContext : Implementation → Bool
  | .pure _ | .abort => false
  | .contextual _ | .reference _ => true

structure Function where
  name : String
  least : Nat
  /-- The greatest number of arguments, none if there is no limit. -/
  most : Option Nat
  /-- The kinds of the parameters; the last one stands for all further ones. -/
  params : List ParamKind
  implementation : Implementation

namespace Function

def paramKind (f : Function) (index : Nat) : ParamKind :=
  (f.params[index]?.or f.params.getLast?).getD .any

def accepts (f : Function) (count : Nat) : Bool :=
  f.least ≤ count && f.most.all (count ≤ ·)

def checkCount (f : Function) (count : Nat) : Except Failure Unit :=
  if f.accepts count then .ok () else .error (.argumentCount f.name f.least f.most count)

/-- Text between quotation marks, with marks, backslashes and line breaks in it escaped. -/
def escaped (s : String) : String :=
  let escape : Char → String
    | '"' => "\\\""
    | '\\' => "\\\\"
    | '\n' => "\\n"
    | '\r' => "\\r"
    | '\t' => "\\t"
    | c => String.singleton c
  "\"" ++ String.join (s.toList.map escape) ++ "\""

/-- A one-line description of the declaration. -/
def summary (f : Function) : String :=
  let most := match f.most with
    | none => "None"
    | some n => s!"Some({n})"
  let params := ", ".intercalate (f.params.map ParamKind.name)
  "FunctionDef \x7b name: " ++ escaped f.name ++
    s!", min_args: {f.least}, max_args: {most}, params: [{params}] \x7d"

end Function

end Spreadsheet
