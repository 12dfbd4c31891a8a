-- SUMMARY: Computations that ask for the values of cells.
import Spreadsheet.Dependencies
import Spreadsheet.Failure
import Spreadsheet.Value

/-! # Inquiries

What a formula computes depends on the values of other cells. An inquiry is such a
computation as a tree: it is done, it has failed, it notes what it is about to read, or it
asks for the value of a cell and goes on with the answer. Who answers is left open, so the
same inquiry can be run with and without remembered values.
-/

namespace Spreadsheet

/-- What is read, and how. -/
inductive Reading where
  | cell (cell : CellAddress)
  /-- The used cells of an area. -/
  | used (area : Area)
  /-- An area as a table. -/
  | table (area : Area)
  deriving DecidableEq, Repr

namespace Reading

/-- What is recorded of a reading. -/
def precedent : Reading → Precedent
  | .cell c => .cell c
  | .used area | .table area => .area area

/-- The cells that a reading is about. -/
def region (reading : Reading) : Area := reading.precedent.region

end Reading

inductive Inquiry (α : Type) where
  | done (a : α)
  | fail (failure : Failure)
  | note (reading : Reading) (next : Inquiry α)
  | ask (cell : CellAddress) (resume : Value → Inquiry α)

namespace Inquiry

def bind {α β : Type} : Inquiry α → (α → Inquiry β) → Inquiry β
  | .done a, f => f a
  | .fail failure, _ => .fail failure
  | .note reading next, f => .note reading (next.bind f)
  | .ask cell resume, f => .ask cell fun v => (resume v).bind f

instance : Monad Inquiry where
  pure := .done
  bind := bind

theorem bind_assoc {α β γ : Type} (q : Inquiry α) (f : α → Inquiry β) (g : β → Inquiry γ) :
    (q.bind f).bind g = q.bind fun a => (f a).bind g := by
  induction q with
  | done => rfl
  | fail => rfl
  | note p next ih => simp [bind, ih]
  | ask cell resume ih => simp [bind, ih]

/-- Runs the inquiry: `record` takes what it notes and `answer` gives the values it asks for. -/
def run {m : Type → Type} {α : Type} [Monad m] [MonadExcept Failure m]
    (record : Reading → m Unit) (answer : CellAddress → m Value) : Inquiry α → m α
  | .done a => pure a
  | .fail failure => throw failure
  | .note reading next => do
    record reading
    next.run record answer
  | .ask cell resume => do
    let v ← answer cell
    (resume v).run record answer

end Inquiry

end Spreadsheet
