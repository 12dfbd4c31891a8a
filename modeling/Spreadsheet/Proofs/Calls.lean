-- SUMMARY: Calls on a workbook, and the same calls as steps that change it in place.
import Spreadsheet.Proofs.Spelling

/-!
# Calls on a workbook

A workbook is set up by calls, each of which may be refused. A refused call gives no workbook, so
whoever made it goes on with the one from before. The same calls are also carried out on a workbook
in place: one check after another, then the change. There, what was changed before a fault would
stay changed. Both come to the same, as no call has a check left once it changes something.
-/

namespace Spreadsheet

namespace Workbook

/-- What is called on a workbook. -/
inductive Call where
  | addSheet (name : String)
  | setValue (place : String) (value : Scalar)
  | setFormula (place entered : String)
  | write (cell : CellAddress) (content : CellContent)
  | defineName (name refersTo : String)
  | removeName (name : String)
  deriving DecidableEq, Repr

/-- The cell lies in the grid of a sheet of the workbook. -/
def HasCell (book : Workbook) (cell : CellAddress) : Prop :=
  (cell.sheet ≠ "" ∧ Grid.HasRow cell.row ∧ Grid.HasCol cell.col) ∧ book.hasSheet cell.sheet

/-- A cell is the same in whatever case its sheet is spelled. -/
theorem HasCell.of_equal {book : Workbook} {cell : CellAddress} {name : String}
    (h : book.HasCell cell) (hequal : Text.equalIgnoringCase cell.sheet name) :
    book.HasCell { cell with sheet := name } := by
  obtain ⟨⟨hname, hgrid⟩, hsheet⟩ := h
  refine ⟨⟨?_, hgrid⟩, ?_⟩
  · rw [ne_eq, ← String.isEmpty_iff, Source.isEmpty_of_equal hequal, String.isEmpty_iff]
    exact hname
  · rw [hasSheet, ← sheet?_eq_of_equal hequal]
    exact hsheet

/-- The workbook that a call gives, unless the call is refused. -/
def called (book : Workbook) : Call → Except Fault Workbook
  | .addSheet name => book.addSheet name
  | .setValue place value => book.setValue place value
  | .setFormula place entered => book.setFormula place entered
  | .write cell content => book.write cell content
  | .defineName name refersTo => book.defineName name refersTo
  | .removeName name => .ok (book.removeName name)

/-- The workbook after some calls, made in order. Those that are refused are passed over. -/
def after (book : Workbook) : List Call → Workbook
  | [] => book
  | call :: calls =>
    match book.called call with
    | .ok book' => book'.after calls
    | .error _ => book.after calls

end Workbook

/-! ## Steps in place -/

/-- Steps on a workbook in place. What was changed before a fault stays changed. -/
abbrev Update := ExceptT Fault (StateM Workbook)

namespace Update

variable {α β : Type}

/-- What some steps come to on a workbook, and the workbook they leave. -/
def on (x : Update α) (book : Workbook) : Except Fault α × Workbook := x.run.run book

/-- A step that looks at the workbook and may find a fault. It changes nothing. -/
def check (look : Workbook → Except Fault α) : Update α :=
  ExceptT.mk do return look (← get)

/-- A step that finds the fault if the condition holds of the workbook. -/
def refuseIf (condition : Workbook → Bool) (fault : Fault) : Update Unit :=
  check fun book => if condition book then .error fault else .ok ()

@[simp] theorem on_modify (f : Workbook → Workbook) (book : Workbook) :
    (modify f : Update Unit).on book = (.ok (), f book) := rfl

theorem on_bind (x : Update α) (f : α → Update β) (book : Workbook) :
    (x >>= f).on book =
      match x.on book with
      | (.ok a, book') => (f a).on book'
      | (.error fault, book') => (.error fault, book') := by
  unfold on ExceptT.run StateT.run
  simp only [bind, ExceptT.bind, ExceptT.mk, StateT.bind, ExceptT.bindCont]
  cases x book with
  | mk r book' => cases r <;> rfl

@[simp] theorem on_check_bind (look : Workbook → Except Fault α) (f : α → Update β)
    (book : Workbook) :
    (check look >>= f).on book =
      match look book with
      | .ok a => (f a).on book
      | .error fault => (.error fault, book) := by
  have hcheck : (check look).on book = (look book, book) := rfl
  rw [on_bind, hcheck]
  cases look book <;> rfl

@[simp] theorem on_refuseIf_bind (condition : Workbook → Bool) (fault : Fault)
    (f : Unit → Update β) (book : Workbook) :
    (refuseIf condition fault >>= f).on book =
      if condition book then (.error fault, book) else (f ()).on book := by
  rw [refuseIf, on_check_bind]
  cases condition book <;> rfl

/-! ## Calls in place -/

def addSheet (name : String) : Update Unit := do
  check fun _ =>
    match SheetName.fault? name with
    | some cause => .error (.sheetName cause)
    | none => .ok ()
  refuseIf (·.hasSheet name) (.duplicateSheet name)
  modify fun book => { book with sheets := book.sheets ++ [{ name }] }

def write (cell : CellAddress) (content : CellContent) : Update Unit := do
  check fun _ => cell.checkBounds
  refuseIf (!·.hasSheet cell.sheet) (.noSuchSheet cell.sheet)
  modify fun book => { book with
    sheets := Workbook.updateSheet cell.sheet (·.put cell.row cell.col content) book.sheets }

def resolve (place : String) : Update CellAddress := do
  let first ← check Workbook.firstSheet
  let cell ← check fun _ => CellAddress.ofText place first
  let sheet ← check (·.findSheet cell.sheet)
  return { cell with sheet }

def define (entry : DefinedName) : Update Unit := do
  check fun _ => DefinedName.check entry.name
  refuseIf (fun book => (book.names.get? entry.name).isSome) (.definedName entry.name .taken)
  modify fun book => { book with names := { entries := entry :: book.names.entries } }

def defineName (name refersTo : String) : Update Unit := do
  let first ← check Workbook.firstSheet
  let area ← check fun _ => Area.ofText refersTo first
  let sheet ← check (·.findSheet area.sheet)
  define { name, target := { area with sheet } }

/-- The steps of a call. -/
def ofCall : Workbook.Call → Update Unit
  | .addSheet name => addSheet name
  | .setValue place value => resolve place >>= fun cell => write cell (.ofValue value)
  | .setFormula place entered => resolve place >>= fun cell => write cell (.ofFormula entered)
  | .write cell content => write cell content
  | .defineName name refersTo => defineName name refersTo
  | .removeName name => modify (·.removeName name)

/-! ## Both come to the same -/

/-- What is left in place of the workbook when a call gives another one or is refused. -/
def settled (book : Workbook) : Except Fault Workbook → Except Fault Unit × Workbook
  | .ok book' => (.ok (), book')
  | .error fault => (.error fault, book)

variable (book : Workbook)

theorem settled_bind (x : Except Fault α) (f : α → Except Fault Workbook) :
    settled book (x >>= f) =
      match x with
      | .ok a => settled book (f a)
      | .error fault => (.error fault, book) := by
  cases x <;> rfl

theorem settled_unless (c : Prop) [Decidable c] (fault : Fault)
    (f : PUnit → Except Fault Workbook) :
    settled book (if c then throw fault >>= f else f ⟨⟩) =
      if c then (.error fault, book) else settled book (f ⟨⟩) := by
  split <;> rfl

theorem on_addSheet (name : String) :
    (addSheet name).on book = settled book (book.addSheet name) := by
  unfold addSheet Workbook.addSheet
  cases SheetName.fault? name with
  | some cause => rfl
  | none =>
      simp only [on_check_bind, on_refuseIf_bind, on_modify, settled_unless]
      rfl

theorem on_write (cell : CellAddress) (content : CellContent) :
    (write cell content).on book = settled book (book.write cell content) := by
  unfold write Workbook.write
  simp only [on_check_bind, on_refuseIf_bind, on_modify, settled_bind, settled_unless]
  rfl

theorem on_resolve_bind (place : String) (f : CellAddress → Update Unit)
    (g : CellAddress → Except Fault Workbook) (hfg : ∀ cell, (f cell).on book = settled book (g cell)) :
    (resolve place >>= f).on book = settled book (book.resolve place >>= g) := by
  unfold resolve Workbook.resolve
  simp only [bind_assoc, pure_bind, on_check_bind, settled_bind, hfg]

theorem on_define (entry : DefinedName) :
    (define entry).on book =
      settled book (book.names.define entry >>= fun names => pure { book with names }) := by
  unfold define DefinedNames.define
  simp only [bind_assoc, on_check_bind, on_refuseIf_bind, on_modify, settled_bind]
  cases (book.names.get? entry.name).isSome <;> rfl

theorem on_defineName (name refersTo : String) :
    (defineName name refersTo).on book = settled book (book.defineName name refersTo) := by
  unfold defineName Workbook.defineName
  simp only [on_check_bind, on_define, settled_bind]

/-- Carried out in place, a call leaves the workbook it gives, or the one from before if it is
refused. -/
theorem on_ofCall (call : Workbook.Call) : (ofCall call).on book = settled book (book.called call) := by
  cases call with
  | addSheet name => exact on_addSheet book name
  | setValue place value => exact on_resolve_bind book place _ _ fun cell => on_write book cell _
  | setFormula place entered => exact on_resolve_bind book place _ _ fun cell => on_write book cell _
  | write cell content => exact on_write book cell content
  | defineName name refersTo => exact on_defineName book name refersTo
  | removeName name => rfl

end Update

end Spreadsheet
