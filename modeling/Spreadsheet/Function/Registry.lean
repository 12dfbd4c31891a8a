-- SUMMARY: The functions that formulas can call, and reading formulas against them.
import Spreadsheet.Formula.Grammar
import Spreadsheet.Function.Aggregate
import Spreadsheet.Function.Logic
import Spreadsheet.Function.Lookup

/-! # Registries

A registry is the functions that formulas can call. They are found by name without regard
to case. Reading a formula against a registry also checks how many arguments each call of
a known function has.
-/

namespace Spreadsheet

/-- Functions, no two with the same name in upper case. -/
structure Registry where
  functions : List Function

namespace Registry

def empty : Registry := ⟨[]⟩

def get? (registry : Registry) (name : String) : Option Function :=
  registry.functions.find? fun f => Text.upper f.name == Text.upper name

/-- Adds a function, in place of the one with its name if there is one. -/
def register (registry : Registry) (f : Function) : Registry :=
  ⟨f :: registry.functions.filter fun g => Text.upper g.name != Text.upper f.name⟩

def size (registry : Registry) : Nat := registry.functions.length

/-! ## The built-in functions -/

def references : List Function := [
  ⟨"OFFSET", 3, some 5, [.reference, .number], .reference Function.offset⟩,
  ⟨"INDEX", 2, some 4, [.reference, .number], .reference Function.index⟩,
  ⟨"INDIRECT", 1, some 2, [.text, .bool], .reference Function.indirect⟩,
  ⟨"ROW", 0, some 1, [.reference], .contextual Function.row⟩,
  ⟨"COLUMN", 0, some 1, [.reference], .contextual Function.column⟩,
  ⟨"ROWS", 1, some 1, [.reference], .pure Function.rows⟩,
  ⟨"COLUMNS", 1, some 1, [.reference], .pure Function.columns⟩,
  ⟨"AREAS", 1, some 1, [.reference], .pure Function.areas⟩,
  ⟨"ADDRESS", 2, some 5, [.number, .number, .number, .bool, .text], .pure Function.address⟩]

def logic : List Function := [
  ⟨"IF", 2, some 3, [.bool, .lazy], .contextual Function.ifElse⟩,
  ⟨"AND", 1, none, [.areas], .pure Function.and⟩,
  ⟨"OR", 1, none, [.areas], .pure Function.or⟩,
  ⟨"NOT", 1, some 1, [.bool], .pure Function.not⟩,
  ⟨"IFERROR", 2, some 2, [.any, .lazy], .contextual Function.ifError⟩,
  ⟨"IFNA", 2, some 2, [.any, .lazy], .contextual Function.ifNotAvailable⟩]

def information : List Function := [
  ⟨"ISBLANK", 1, some 1, [.any], .pure Function.isBlank⟩,
  ⟨"ISERROR", 1, some 1, [.any], .pure Function.isError⟩,
  ⟨"ISERR", 1, some 1, [.any], .pure Function.isOtherError⟩,
  ⟨"ISNA", 1, some 1, [.any], .pure Function.isNotAvailable⟩,
  ⟨"ISNUMBER", 1, some 1, [.any], .pure Function.isNumber⟩,
  ⟨"ISTEXT", 1, some 1, [.any], .pure Function.isText⟩,
  ⟨"ISLOGICAL", 1, some 1, [.any], .pure Function.isBool⟩,
  ⟨"ISREF", 1, some 1, [.reference], .pure Function.isReference⟩,
  ⟨"NA", 0, some 0, [], .pure Function.notAvailable⟩]

def aggregates : List Function := [
  ⟨"SUM", 1, none, [.areas], .pure Function.sum⟩,
  ⟨"COUNT", 1, none, [.areas], .pure Function.count⟩,
  ⟨"COUNTA", 1, none, [.areas], .pure Function.countFilled⟩,
  ⟨"AVERAGE", 1, none, [.areas], .pure Function.average⟩,
  ⟨"MIN", 1, none, [.areas], .pure Function.min⟩,
  ⟨"MAX", 1, none, [.areas], .pure Function.max⟩]

def builtins : Registry := ⟨references ++ logic ++ information ++ aggregates⟩

/-! ## Reading formulas -/

open Formula

/-- Why an expression is a call of a known function with a wrong number of arguments. -/
def callFailure? (registry : Registry) : Expr → Option Failure
  | .call function arguments =>
    match registry.get? function with
    | none => none
    | some f =>
      match f.checkCount arguments.length with
      | .ok () => none
      | .error failure => some failure
  | _ => none

/-- The failure of the first call, from the outside in and from left to right, with a wrong
number of arguments. -/
def countFailure? (registry : Registry) (e : Expr) : Option Failure :=
  e.nodes.findSome? registry.callFailure?

/-- The expression of a formula as it was entered, its calls checked. -/
def readFormula (registry : Registry) (entered : String) : Except Failure Expr := do
  let e ← (Expr.ofText entered).mapError .malformed
  match registry.countFailure? e with
  | some failure => throw failure
  | none => return e

end Registry

end Spreadsheet
