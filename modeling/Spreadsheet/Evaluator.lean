-- SUMMARY: Evaluators: computing formula cells on demand and remembering their values.
import Spreadsheet.Evaluation.Expression

/-! # Evaluators

An evaluator computes formula cells on demand and remembers their values, what each of them
read, and the formulas it has read. A cell that is asked for while it is being computed is
circular. A write through the evaluator drops the remembered values of the cell and of
everything that depends on it.
-/

namespace Spreadsheet

open Std

structure Settings where
  /-- How many formulas may be computed inside each other. -/
  maxDepth : Nat := 256
  /-- Whether computed values are remembered. -/
  remember : Bool := true
  deriving DecidableEq, Repr

/-- What an evaluator has learned. -/
structure Memory where
  /-- The values of computed cells. -/
  values : TreeMap CellAddress Value := ∅
  /-- The formulas read so far, by their text. -/
  formulas : TreeMap String Formula.Expr := ∅
  dependencies : Dependencies := {}

namespace Memory

/-- Remembers the expression of a formula. -/
def learn (memory : Memory) (text : String) (e : Formula.Expr) : Memory :=
  { memory with formulas := memory.formulas.insert text e }

/-- Records that the formula of `reader` made a reading. -/
def record (memory : Memory) (reader : CellAddress) (reading : Reading) : Memory :=
  { memory with dependencies := memory.dependencies.record reading.precedent reader }

/-- Forgets what the formula of `reader` read. -/
def forget (memory : Memory) (reader : CellAddress) : Memory :=
  { memory with dependencies := memory.dependencies.forget reader }

/-- Remembers the value of a cell. -/
def remember (memory : Memory) (cell : CellAddress) (v : Value) : Memory :=
  { memory with values := memory.values.insert cell v }

/-- Drops the remembered values of a cell and of all that depends on it, and what it read. -/
def invalidate (memory : Memory) (cell : CellAddress) : Memory where
  values := (memory.dependencies.dependents cell).foldl TreeMap.erase (memory.values.erase cell)
  formulas := memory.formulas
  dependencies := memory.dependencies.forget cell

end Memory

/-- What an evaluator computes with. -/
structure Engine where
  source : Source
  registry : Registry := .builtins
  settings : Settings := {}

structure Evaluator extends Engine where
  memory : Memory := {}

/-- A computation that uses the memory and may fail. What it learned before a failure stays. -/
abbrev Evaluation := ExceptT Failure (StateM Memory)

namespace Evaluation

/-- Makes a fault of the workbook a failure. -/
def liftFault {α : Type} (result : Except Fault α) : Evaluation α :=
  ExceptT.mk (pure (result.mapError Failure.model))

end Evaluation

/-- What is known of a cell before anything is computed for it. -/
inductive Finding where
  | value (v : Value)
  | formula (e : Formula.Expr)

namespace Engine

open Evaluation

/-- The expression of a formula. Formulas that can be read are remembered. -/
def formula (engine : Engine) (text : String) : Evaluation Formula.Expr := do
  match (← get).formulas[text]? with
  | some e => return e
  | none =>
    let e ← (ExceptT.mk (pure (engine.registry.readFormula text)) : Evaluation Formula.Expr)
    modify (·.learn text e)
    return e

/-- What is known of a cell, `chain` being the cells under computation, innermost first. -/
def find (engine : Engine) (chain : List CellAddress) (cell : CellAddress) :
    Evaluation Finding := do
  if cell ∈ chain then return .value (.error .circular)
  let content ← liftFault (engine.source.workbook.read cell)
  match content.formula with
  | none => return .value (.scalar content.value)
  | some text =>
    match (← get).values[cell]? with
    | some v => return .value v
    | none => return .formula (← engine.formula text)

/-- What the formula of a cell computes below the cells of `chain`. -/
def inquiry (engine : Engine) (chain : List CellAddress) (cell : CellAddress)
    (e : Formula.Expr) : Inquiry Value :=
  e.value engine.registry ⟨engine.source, cell, chain.length + 1⟩

/-- The value of a cell when `depth` more formulas may be computed inside each other. -/
def cellValue (engine : Engine) :
    (depth : Nat) → (chain : List CellAddress) → (cell : CellAddress) → Evaluation Value
  | 0, chain, cell => do
    match ← engine.find chain cell with
    | .value v => return v
    | .formula _ => throw (.tooDeep engine.settings.maxDepth)
  | depth + 1, chain, cell => do
    match ← engine.find chain cell with
    | .value v => return v
    | .formula e =>
      modify (·.forget cell)
      let v ← (engine.inquiry chain cell e).run (fun reading => modify (·.record cell reading))
        (engine.cellValue depth (cell :: chain))
      if engine.settings.remember then modify (·.remember cell v)
      return v

/-- Runs an inquiry that no cell is computed by. What it reads is not recorded. -/
def answer {α : Type} (engine : Engine) (inquiry : Inquiry α) : Evaluation α :=
  inquiry.run (fun _ => pure ()) (engine.cellValue engine.settings.maxDepth [])

end Engine

namespace Evaluator

open Evaluation

/-- Lets a computation use the evaluator's memory. -/
def run {α : Type} (ev : Evaluator) (f : Engine → Evaluation α) :
    Except Failure α × Evaluator :=
  let ⟨engine, memory⟩ := ev
  let (result, memory) := (f engine).run.run memory
  (result, ⟨engine, memory⟩)

/-! ## Reading -/

/-- The value of a cell, a whole table if its formula gives one. -/
def evaluate (ev : Evaluator) (cell : CellAddress) : Except Failure Value × Evaluator :=
  ev.run fun engine => do
    let cell ← liftFault (engine.source.canonical cell)
    engine.cellValue engine.settings.maxDepth [] cell

/-- The value of an area. -/
def evaluateArea (ev : Evaluator) (area : Area) : Except Failure Value × Evaluator :=
  ev.run fun engine => do
    let corner ← liftFault (engine.source.canonical area.topLeft)
    engine.answer (Site.readArea ⟨engine.source, corner, 0⟩ { area with sheet := corner.sheet })

/-- The value of a formula as if it stood in `cell`, without storing it. -/
def evaluateFormula (ev : Evaluator) (entered : String) (cell : CellAddress) :
    Except Failure Value × Evaluator :=
  ev.run fun engine => do
    let cell ← liftFault (engine.source.canonical cell)
    let e ← engine.formula entered
    engine.answer (e.value engine.registry ⟨engine.source, cell, 0⟩)

/-- The stored value of a cell, whatever its formula. -/
def storedValue (ev : Evaluator) (cell : CellAddress) : Except Failure Scalar :=
  (do
    let cell ← ev.source.canonical cell
    let content ← ev.source.workbook.read cell
    return content.value).mapError .model

/-- The remembered value of a cell. -/
def remembered? (ev : Evaluator) (cell : CellAddress) : Option Value :=
  match ev.source.canonical cell with
  | .ok cell => ev.memory.values[cell]?
  | .error _ => none

/-! ## Writing -/

/-- Stores the content of a cell. -/
def write (ev : Evaluator) (cell : CellAddress) (content : CellContent) :
    Except Failure Unit × Evaluator :=
  let result : Except Fault (CellAddress × Workbook) := do
    let cell ← ev.source.canonical cell
    return (cell, ← ev.source.workbook.write cell content)
  match result with
  | .error fault => (.error (.model fault), ev)
  | .ok (cell, workbook) =>
    (.ok (), { ev with
      source := { ev.source with workbook }
      memory := ev.memory.invalidate cell })

def setValue (ev : Evaluator) (cell : CellAddress) (value : Scalar) :
    Except Failure Unit × Evaluator :=
  ev.write cell (.ofValue value)

/-- Stores a formula, which has to be well formed. -/
def setFormula (ev : Evaluator) (cell : CellAddress) (entered : String) :
    Except Failure Unit × Evaluator :=
  let content := CellContent.ofFormula entered
  match ev.run fun engine => engine.formula (content.formula.getD "") with
  | (.error failure, ev) => (.error failure, ev)
  | (.ok _, ev) => ev.write cell content

/-- Forgets all values and dependencies. Formulas stay read. -/
def forgetValues (ev : Evaluator) : Evaluator :=
  { ev with memory := { formulas := ev.memory.formulas } }

/-- A one-line description: the settings and how much is remembered. -/
def summary (ev : Evaluator) : String :=
  "Evaluator \x7b config: EvaluatorConfig \x7b " ++
    s!"max_depth: {ev.settings.maxDepth}, cache_values: {ev.settings.remember} " ++
    "\x7d, " ++ s!"cached: {ev.memory.values.size}, parsed: {ev.memory.formulas.size} " ++ "\x7d"

end Evaluator

end Spreadsheet
