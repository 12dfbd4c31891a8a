-- SUMMARY: Sequences of operations on an evaluator, and what each of them can do.
import Spreadsheet.Proofs.Runs
import Spreadsheet.Proofs.Source

/-!
# Histories

An evaluator is asked for values and written to, in any order. The history of such a
sequence lists what happened in the computations it caused. A single operation does one of
four things, which is all that the proofs about sequences need to know of it.
-/

namespace Spreadsheet

open Std Evaluation

/-- What an evaluator may be asked for. -/
inductive Query where
  | cell (cell : CellAddress)
  | area (area : Area)
  | formula (entered : String) (cell : CellAddress)
  deriving DecidableEq, Repr

inductive Operation where
  | ask (query : Query)
  | setValue (cell : CellAddress) (value : Scalar)
  | setFormula (cell : CellAddress) (entered : String)
  | forgetValues

namespace Query

/-- What a query inquires once its formula is read. -/
def prepare (engine : Engine) : Query → Evaluation (Inquiry Value)
  | .cell c => do
    let c ← liftFault (engine.source.canonical c)
    return .ask c .done
  | .area a => do
    let corner ← liftFault (engine.source.canonical a.topLeft)
    return Site.readArea ⟨engine.source, corner, 0⟩ { a with sheet := corner.sheet }
  | .formula entered c => do
    let c ← liftFault (engine.source.canonical c)
    let e ← engine.formula entered
    return e.value engine.registry ⟨engine.source, c, 0⟩

/-- What a query inquires. -/
def inquiry (engine : Engine) : Query → Except Failure (Inquiry Value)
  | .cell c => do
    let c ← (engine.source.canonical c).mapError .model
    return .ask c .done
  | .area a => do
    let corner ← (engine.source.canonical a.topLeft).mapError .model
    return Site.readArea ⟨engine.source, corner, 0⟩ { a with sheet := corner.sheet }
  | .formula entered c => do
    let c ← (engine.source.canonical c).mapError .model
    let e ← engine.registry.readFormula entered
    return e.value engine.registry ⟨engine.source, c, 0⟩

theorem inquiry_cell {engine : Engine} {cell x : CellAddress}
    (hx : engine.source.canonical cell = .ok x) :
    inquiry engine (.cell cell) = .ok (.ask x .done) := by
  simp only [inquiry, hx]
  rfl

end Query

/-- If the content has a formula, it can be read. -/
def Registry.Accepts (registry : Registry) (content : CellContent) : Prop :=
  ∀ text, content.formula = some text → ∃ e, registry.readFormula text = .ok e

namespace Evaluator

/-- An evaluator that has learned nothing yet. -/
def fresh (engine : Engine) : Evaluator := { engine with }

def reply (ev : Evaluator) : Query → Except Failure Value × Evaluator
  | .cell cell => ev.evaluate cell
  | .area area => ev.evaluateArea area
  | .formula entered cell => ev.evaluateFormula entered cell

def apply (ev : Evaluator) : Operation → Evaluator
  | .ask query => (ev.reply query).2
  | .setValue cell value => (ev.setValue cell value).2
  | .setFormula cell entered => (ev.setFormula cell entered).2
  | .forgetValues => ev.forgetValues

/-- The evaluator after some operations, done in order. -/
def after (ev : Evaluator) : List Operation → Evaluator
  | [] => ev
  | op :: ops => (ev.apply op).after ops

/-- What happens in the computations that an operation causes. -/
def events (ev : Evaluator) : Operation → List Event
  | .ask query =>
    match (query.prepare ev.toEngine).on ev.memory with
    | (.ok q, m) =>
      (q.log none (ev.cellValue ev.settings.maxDepth [])
        (ev.toEngine.events ev.settings.maxDepth []) m).events
    | (.error _, _) => []
  | _ => []

/-- What happens in the computations that some operations cause, from the first to the last. -/
def history (ev : Evaluator) : List Operation → List Event
  | [] => []
  | op :: ops => ev.events op ++ (ev.apply op).history ops

theorem after_append (ev : Evaluator) (ops ops' : List Operation) :
    ev.after (ops ++ ops') = (ev.after ops).after ops' := by
  induction ops generalizing ev with
  | nil => rfl
  | cons op ops ih => exact ih _

/-! ## What an operation can do -/

/-- What a successful write of a cell as the source spells it leaves. -/
def written (ev : Evaluator) (a : CellAddress) (book' : Workbook) : Evaluator :=
  { ev with
    source := { ev.source with workbook := book' }
    memory := ev.memory.invalidate a }

/-- What an operation does, and what happens meanwhile: nothing but reading formulas, answering a
query, storing a cell whose formula can be read, or forgetting. -/
inductive Step (ev : Evaluator) : Operation → List Event → Evaluator → Prop where
  | idle {op : Operation} {formulas : TreeMap String Formula.Expr} :
      Step ev op [] { ev with memory := { ev.memory with formulas } }
  | answered {q : Inquiry Value} {formulas : TreeMap String Formula.Expr}
      {s : Except Failure Value} {m' : Memory} {log : Log} {query : Query} :
      query.inquiry ev.toEngine = .ok q →
      Runs ev.toEngine (.inquiry ev.settings.maxDepth [] none q) { ev.memory with formulas } s m'
        log →
      Step ev (.ask query) log.events { ev with memory := m' }
  | written {op : Operation} {cell a : CellAddress} {content : CellContent} {book' : Workbook}
      {formulas : TreeMap String Formula.Expr} :
      ev.source.canonical cell = .ok a → ev.source.workbook.write a content = .ok book' →
      ev.registry.Accepts content →
      Step ev op [] (written { ev with memory := { ev.memory with formulas } } a book')
  | forgotten : Step ev .forgetValues [] ev.forgetValues

/-- Operations change neither the registry nor the settings nor the names that are known. -/
theorem Step.same {ev ev' : Evaluator} {op : Operation} {events : List Event}
    (h : ev.Step op events ev') :
    ev'.registry = ev.registry ∧ ev'.settings = ev.settings ∧
      ev'.source.sheetName? = ev.source.sheetName? ∧
      ev'.source.nameTarget? = ev.source.nameTarget? := by
  cases h with
  | idle => exact ⟨rfl, rfl, rfl, rfl⟩
  | answered _ _ => exact ⟨rfl, rfl, rfl, rfl⟩
  | written _ hbook _ =>
      exact ⟨rfl, rfl, Source.sheetName?_write hbook, Source.nameTarget?_write hbook⟩
  | forgotten => exact ⟨rfl, rfl, rfl, rfl⟩

/-- The second evaluator is what a successful write of a cell leaves. -/
inductive Writes (ev : Evaluator) (cell : CellAddress) : Evaluator → Prop where
  | value {value : Scalar} {ev' : Evaluator} :
      ev.setValue cell value = (.ok (), ev') → Writes ev cell ev'
  | formula {entered : String} {ev' : Evaluator} :
      ev.setFormula cell entered = (.ok (), ev') → Writes ev cell ev'

variable {ev : Evaluator}

theorem run_eq {α : Type} (f : Engine → Evaluation α) :
    ev.run f = (((f ev.toEngine).on ev.memory).1,
      { ev with memory := ((f ev.toEngine).on ev.memory).2 }) := rfl

theorem prepare_on (hm : ev.toEngine.FormulasRead ev.memory) (query : Query) :
    ∃ formulas, (query.prepare ev.toEngine).on ev.memory =
        (query.inquiry ev.toEngine, { ev.memory with formulas }) ∧
      ev.toEngine.FormulasRead { ev.memory with formulas } := by
  cases query with
  | cell cell =>
      refine ⟨ev.memory.formulas, ?_, hm⟩
      simp only [Query.prepare, Query.inquiry, on_bind (liftFault _), on_liftFault]
      cases ev.source.canonical cell <;> rfl
  | area area =>
      refine ⟨ev.memory.formulas, ?_, hm⟩
      simp only [Query.prepare, Query.inquiry, on_bind (liftFault _), on_liftFault]
      cases ev.source.canonical area.topLeft <;> rfl
  | formula entered cell =>
      simp only [Query.prepare, Query.inquiry, on_bind (liftFault _), on_liftFault]
      cases ev.source.canonical cell with
      | error fault => exact ⟨ev.memory.formulas, rfl, hm⟩
      | ok cell =>
          cases he : ev.registry.readFormula entered with
          | error failure =>
              refine ⟨ev.memory.formulas, ?_, hm⟩
              exact on_bind_error (Engine.formula_on_of_error hm he)
          | ok e =>
              obtain ⟨formulas, hon, hread⟩ := Engine.formula_on_of_read hm he
              exact ⟨formulas, on_bind_ok hon, hread⟩

/-- A query is answered by running what it inquires. -/
theorem reply_eq (query : Query) :
    ev.reply query = ev.run fun engine => query.prepare engine >>= engine.answer := by
  have hanswer (cell : CellAddress) :
      ev.answer (.ask cell .done) = ev.cellValue ev.settings.maxDepth [] cell := bind_pure _
  cases query with
  | cell cell =>
      simp only [reply, evaluate, Query.prepare, bind_assoc, pure_bind, run_eq, hanswer]
  | area area =>
      simp only [reply, evaluateArea, Query.prepare, bind_assoc, pure_bind]
  | formula entered cell =>
      simp only [reply, evaluateFormula, Query.prepare, bind_assoc, pure_bind]

/-- A query changes nothing but the memory. -/
theorem toEngine_reply (ev : Evaluator) (query : Query) :
    (ev.reply query).2.toEngine = ev.toEngine := by
  rw [reply_eq, run_eq]

theorem toEngine_after_ask {query : Query} {before : List Operation}
    (h : before <+: [.ask query]) : (ev.after before).toEngine = ev.toEngine := by
  obtain rfl | ⟨ops, rfl, hops⟩ := List.prefix_cons_iff.mp h
  · rfl
  · obtain rfl := List.prefix_nil.mp hops
    exact toEngine_reply ev query

/-- The reply to a query, and what the query does to the memory. -/
theorem reply_runs (hm : ev.toEngine.FormulasRead ev.memory) {query : Query} {q : Inquiry Value}
    (hq : query.inquiry ev.toEngine = .ok q) :
    ∃ formulas s m' log, ev.reply query = (s, { ev with memory := m' }) ∧
      Runs ev.toEngine (.inquiry ev.settings.maxDepth [] none q) { ev.memory with formulas } s m'
        log ∧ log.events = ev.events (.ask query) ∧ ev.toEngine.FormulasRead m' := by
  obtain ⟨formulas, hon, hread⟩ := prepare_on hm query
  rw [hq] at hon
  obtain ⟨s, m', hrun, hm', hruns⟩ := Engine.runs_inquiry
    (fun c m hm => Engine.visits ev.settings.maxDepth [] c hm) none q hread
  refine ⟨formulas, s, m', _, ?_, hruns, ?_, hm'⟩
  · rw [reply_eq, run_eq, on_bind_ok hon]
    exact congrArg (fun r => (r.1, { ev with memory := r.2 })) hrun
  · simp only [events, hon]

theorem reply_error (hm : ev.toEngine.FormulasRead ev.memory) {query : Query} {failure : Failure}
    (hq : query.inquiry ev.toEngine = .error failure) :
    ∃ formulas, ev.reply query =
        (.error failure, { ev with memory := { ev.memory with formulas } }) ∧
      ev.events (.ask query) = [] ∧ ev.toEngine.FormulasRead { ev.memory with formulas } := by
  obtain ⟨formulas, hon, hread⟩ := prepare_on hm query
  rw [hq] at hon
  refine ⟨formulas, ?_, ?_, hread⟩
  · rw [reply_eq, run_eq, on_bind_error hon]
  · simp only [events, hon]

theorem write_of_ok {cell a : CellAddress} {content : CellContent} {book' : Workbook}
    (ha : ev.source.canonical cell = .ok a)
    (hbook : ev.source.workbook.write a content = .ok book') :
    ev.write cell content = (.ok (), ev.written a book') := by
  simp only [write, ha, hbook, bind, Except.bind, pure, Except.pure, written]

/-- A write is refused, or it stores something and drops what depends on it. -/
theorem write_cases (ev : Evaluator) (cell : CellAddress) (content : CellContent) :
    (∃ fault, ev.write cell content = (.error (.model fault), ev)) ∨
      ∃ a book', ev.source.canonical cell = .ok a ∧
        ev.source.workbook.write a content = .ok book' ∧
        ev.write cell content = (.ok (), ev.written a book') := by
  cases ha : ev.source.canonical cell with
  | error fault =>
      refine .inl ⟨fault, ?_⟩
      simp only [write, ha, bind, Except.bind]
  | ok a =>
      cases hbook : ev.source.workbook.write a content with
      | error fault =>
          refine .inl ⟨fault, ?_⟩
          simp only [write, ha, hbook, bind, Except.bind]
      | ok book' => exact .inr ⟨a, book', rfl, hbook, write_of_ok ha hbook⟩

/-- The formula of a stored cell is read before it is stored. -/
theorem setFormula_eq (hm : ev.toEngine.FormulasRead ev.memory) (cell : CellAddress)
    (entered : String) :
    ∃ formulas, ev.toEngine.FormulasRead { ev.memory with formulas } ∧
      ((¬ ev.registry.Accepts (.ofFormula entered) ∧ ∃ failure, ev.setFormula cell entered =
          (.error failure, { ev with memory := { ev.memory with formulas } })) ∨
        ev.registry.Accepts (.ofFormula entered) ∧
          ev.setFormula cell entered =
            Evaluator.write { ev with memory := { ev.memory with formulas } } cell
              (.ofFormula entered)) := by
  unfold setFormula
  simp only [run_eq]
  cases he : ev.registry.readFormula ((CellContent.ofFormula entered).formula.getD "") with
  | error failure =>
      rw [Engine.formula_on_of_error hm he]
      refine ⟨ev.memory.formulas, hm, .inl ⟨fun haccepts => ?_, failure, rfl⟩⟩
      obtain ⟨e, he'⟩ := haccepts _ rfl
      cases he'.symm.trans he
  | ok e =>
      obtain ⟨formulas, hon, hread⟩ := Engine.formula_on_of_read hm he
      rw [hon]
      refine ⟨formulas, hread, .inr ⟨fun text htext => ⟨e, ?_⟩, rfl⟩⟩
      rwa [htext] at he

theorem write_step {op : Operation} {formulas : TreeMap String Formula.Expr}
    (hread : ev.toEngine.FormulasRead { ev.memory with formulas }) (cell : CellAddress)
    {content : CellContent} (hcontent : ev.registry.Accepts content) :
    let ev' := (Evaluator.write { ev with memory := { ev.memory with formulas } } cell content).2
    ev.Step op [] ev' ∧ ev'.toEngine.FormulasRead ev'.memory := by
  obtain ⟨fault, h⟩ | ⟨a, book', ha, hbook, h⟩ :=
    write_cases { ev with memory := { ev.memory with formulas } } cell content
  · rw [h]
    exact ⟨.idle, hread⟩
  · rw [h]
    exact ⟨.written ha hbook hcontent, hread⟩

theorem step_apply (hm : ev.toEngine.FormulasRead ev.memory) (op : Operation) :
    ev.Step op (ev.events op) (ev.apply op) ∧
      (ev.apply op).toEngine.FormulasRead (ev.apply op).memory := by
  cases op with
  | ask query =>
      simp only [apply]
      cases hq : query.inquiry ev.toEngine with
      | error failure =>
          obtain ⟨formulas, hreply, hevents, hread⟩ := reply_error hm hq
          rw [hreply, hevents]
          exact ⟨.idle, hread⟩
      | ok q =>
          obtain ⟨formulas, s, m', log, hreply, hruns, hevents, hm'⟩ := reply_runs hm hq
          rw [hreply, ← hevents]
          exact ⟨.answered hq hruns, hm'⟩
  | setValue cell value => exact @write_step _ _ ev.memory.formulas hm cell (.ofValue value) nofun
  | setFormula cell entered =>
      simp only [apply]
      obtain ⟨formulas, hread, ⟨-, failure, h⟩ | ⟨haccepts, h⟩⟩ := setFormula_eq hm cell entered
      · rw [h]
        exact ⟨.idle, hread⟩
      · rw [h]
        exact write_step hread cell haccepts
  | forgetValues => exact ⟨.forgotten, hm⟩

theorem formulasRead_after (hm : ev.toEngine.FormulasRead ev.memory) (ops : List Operation) :
    (ev.after ops).toEngine.FormulasRead (ev.after ops).memory := by
  induction ops generalizing ev with
  | nil => exact hm
  | cons op ops ih => exact ih (step_apply hm op).2

/-! ## What many operations keep -/

/-- What holds at first and is kept by every step holds in the end. A step starts where the
operations before it have led. -/
theorem after_induction {P : Evaluator → Prop} (ops : List Operation)
    (hm : ev.toEngine.FormulasRead ev.memory) (hev : P ev)
    (hstep : ∀ before op events ev', before ++ [op] <+: ops → P (ev.after before) →
      (ev.after before).Step op events ev' → ev'.toEngine.FormulasRead ev'.memory → P ev') :
    P (ev.after ops) := by
  induction ops generalizing ev with
  | nil => exact hev
  | cons op ops ih =>
      obtain ⟨hfirst, hread⟩ := step_apply hm op
      have hev' := hstep [] op _ _ (List.prefix_cons_inj op |>.mpr List.nil_prefix) hev hfirst hread
      exact ih hread hev' fun before op' events ev' hbefore =>
        hstep (op :: before) op' events ev' (List.prefix_cons_inj op |>.mpr hbefore)

/-- Operations change neither the functions, the settings nor what names stand for. -/
theorem same_after (hm : ev.toEngine.FormulasRead ev.memory) (ops : List Operation) :
    (ev.after ops).registry = ev.registry ∧ (ev.after ops).settings = ev.settings ∧
      (ev.after ops).source.sheetName? = ev.source.sheetName? ∧
      (ev.after ops).source.nameTarget? = ev.source.nameTarget? := by
  refine after_induction (P := fun ev' => ev'.registry = ev.registry ∧ ev'.settings = ev.settings ∧
    ev'.source.sheetName? = ev.source.sheetName? ∧ ev'.source.nameTarget? = ev.source.nameTarget?)
    ops hm ⟨rfl, rfl, rfl, rfl⟩ ?_
  rintro before op events ev' - ⟨hregistry, hsettings, hsheets, htargets⟩ hstep -
  obtain ⟨hregistry', hsettings', hsheets', htargets'⟩ := hstep.same
  exact ⟨hregistry'.trans hregistry, hsettings'.trans hsettings, hsheets'.trans hsheets,
    htargets'.trans htargets⟩

theorem registry_after (hm : ev.toEngine.FormulasRead ev.memory) (ops : List Operation) :
    (ev.after ops).registry = ev.registry :=
  (same_after hm ops).1

theorem settings_after (hm : ev.toEngine.FormulasRead ev.memory) (ops : List Operation) :
    (ev.after ops).settings = ev.settings :=
  (same_after hm ops).2.1

theorem sheetName?_after (hm : ev.toEngine.FormulasRead ev.memory) (ops : List Operation) :
    (ev.after ops).source.sheetName? = ev.source.sheetName? :=
  (same_after hm ops).2.2.1

/-- What happened in a history happened in one of its operations. -/
theorem mem_history {ops : List Operation} {event : Event} (h : event ∈ ev.history ops) :
    ∃ before op, before ++ [op] <+: ops ∧ event ∈ (ev.after before).events op := by
  induction ops generalizing ev with
  | nil => cases h
  | cons op ops ih =>
      obtain h | h := List.mem_append.mp h
      · exact ⟨[], op, List.prefix_cons_inj op |>.mpr List.nil_prefix, h⟩
      · obtain ⟨before, op', hbefore, hevent⟩ := ih h
        exact ⟨op :: before, op', List.prefix_cons_inj op |>.mpr hbefore, hevent⟩

/-- A successful write stores something in the cell and drops what depends on it. -/
theorem Writes.eq (hm : ev.toEngine.FormulasRead ev.memory) {cell : CellAddress} {ev' : Evaluator}
    (h : ev.Writes cell ev') :
    ∃ a content book' formulas, ev.source.canonical cell = .ok a ∧
      ev.source.workbook.write a content = .ok book' ∧
      ev' = written { ev with memory := { ev.memory with formulas } } a book' := by
  have hwrite (formulas : TreeMap String Formula.Expr) (content : CellContent)
      (h : Evaluator.write { ev with memory := { ev.memory with formulas } } cell content =
        (.ok (), ev')) : ∃ a content book' formulas, ev.source.canonical cell = .ok a ∧
      ev.source.workbook.write a content = .ok book' ∧
      ev' = written { ev with memory := { ev.memory with formulas } } a book' := by
    obtain ⟨fault, hw⟩ | ⟨a, book', ha, hbook, hw⟩ :=
      write_cases { ev with memory := { ev.memory with formulas } } cell content
    · rw [hw] at h
      cases h
    · rw [hw] at h
      cases h
      exact ⟨a, content, book', formulas, ha, hbook, rfl⟩
  cases h with
  | value h => exact hwrite ev.memory.formulas _ h
  | formula h =>
      obtain ⟨formulas, -, ⟨-, failure, hset⟩ | ⟨-, hset⟩⟩ := setFormula_eq hm cell _
      · rw [hset] at h
        cases h
      · exact hwrite formulas _ (hset.symm.trans h)

end Evaluator

/-! ## A workbook of two cells -/

/-- The engine over a workbook that holds a value and a formula. -/
def Engine.pair (b : Bool) (text : String) : Engine := { source := { workbook := .pair b text } }

/-- The engine over a workbook that holds two formulas. -/
def Engine.formulaPair (first second : String) : Engine :=
  { source := { workbook := .formulaPair first second } }

/-- A fresh evaluator of a value and a formula that was asked for the formula's cell. -/
def Evaluator.computedPair (text : String) : Evaluator :=
  (fresh (.pair true text)).after [.ask (.cell Workbook.pairFormula)]

/-- What a write of the other truth value to a cell answers and leaves. -/
def Evaluator.writtenPair (text : String) (cell : CellAddress) : Except Failure Unit × Evaluator :=
  (computedPair text).setValue cell (.bool false)

end Spreadsheet
