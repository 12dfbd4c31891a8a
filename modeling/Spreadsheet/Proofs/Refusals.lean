-- SUMMARY: Which writes through an evaluator are refused, and that refused calls change nothing.
import Spreadsheet.Proofs.Calls
import Spreadsheet.Proofs.History

/-!
# Refusals

An evaluator refuses to write a cell that the workbook does not have, and a formula that cannot be
read. Both are found out before anything is stored or dropped. The formula is read first, so a
formula that can be read is remembered even if the cell is refused then. Nothing else is left of a
refused call.
-/

namespace Spreadsheet

open Std

namespace Source

variable {source : Source} {cell : CellAddress}

/-- A cell that the workbook has can be written as the source spells it, and no other cell can. -/
theorem hasCell_iff (content : CellContent) :
    source.workbook.HasCell cell ↔
      ∃ a book', source.canonical cell = .ok a ∧
        source.workbook.write a content = .ok book' := by
  constructor
  · intro hcell
    obtain ⟨stored, hstored⟩ := exists_sheetName? hcell.2
    obtain ⟨-, -, hequal⟩ := exists_sheet? hstored
    obtain ⟨hbounds, hsheet⟩ := hcell.of_equal (Text.equalIgnoringCase_symm hequal)
    exact ⟨{ cell with sheet := stored }, _, canonical_eq_ok.mpr ⟨hcell.1, stored, hstored, rfl⟩,
      Workbook.write_eq_ok.mpr ⟨hbounds, hsheet, rfl⟩⟩
  · rintro ⟨a, book', hcanonical, -⟩
    obtain ⟨hbounds, stored, hstored, -⟩ := canonical_eq_ok.mp hcanonical
    obtain ⟨sheet, hfound, -⟩ := exists_sheet? hstored
    exact ⟨hbounds, Option.isSome_iff_exists.mpr ⟨sheet, hfound⟩⟩

end Source

namespace Evaluator

/-! ## Writing through an evaluator -/

/-- Both compute with the same workbook, remember the same values and have recorded the same of
what formulas read. -/
structure Agrees (ev ev' : Evaluator) : Prop where
  engine : ev'.toEngine = ev.toEngine
  values : ev'.memory.values = ev.memory.values
  dependencies : ev'.memory.dependencies = ev.memory.dependencies

/-- The outcome of a call is a refusal for that cause alone, and a refusal changes nothing. -/
structure RefusedFor (ev : Evaluator) (outcome : Except Failure Unit × Evaluator)
    (cause : Prop) : Prop where
  refused : (∃ failure, outcome.1 = .error failure) ↔ cause
  agrees : ∀ failure, outcome.1 = .error failure → ev.Agrees outcome.2

variable {ev : Evaluator}

theorem Agrees.trans {ev' ev'' : Evaluator} (h : ev.Agrees ev') (h' : ev'.Agrees ev'') :
    ev.Agrees ev'' where
  engine := h'.engine.trans h.engine
  values := h'.values.trans h.values
  dependencies := h'.dependencies.trans h.dependencies

/-- Reading formulas changes nothing else. -/
theorem agrees_of_formulas (ev : Evaluator) (formulas : TreeMap String Formula.Expr) :
    ev.Agrees { ev with memory := { ev.memory with formulas } } :=
  ⟨rfl, rfl, rfl⟩

theorem write_refusedFor (ev : Evaluator) (cell : CellAddress) (content : CellContent) :
    ev.RefusedFor (ev.write cell content) (¬ ev.source.workbook.HasCell cell) := by
  rcases write_cases ev cell content with ⟨fault, hwrite⟩ | ⟨a, book', ha, hbook, hwrite⟩
  · have hcell : ¬ ev.source.workbook.HasCell cell := by
      intro hcell
      obtain ⟨a, book', ha, hbook⟩ := (Source.hasCell_iff content).mp hcell
      rw [write_of_ok ha hbook] at hwrite
      cases hwrite
    rw [hwrite]
    exact ⟨iff_of_true ⟨_, rfl⟩ hcell, fun _ _ => ⟨rfl, rfl, rfl⟩⟩
  · have hcell : ev.source.workbook.HasCell cell :=
      (Source.hasCell_iff content).mpr ⟨a, book', ha, hbook⟩
    rw [hwrite]
    exact ⟨iff_of_false nofun (not_not_intro hcell), nofun⟩

theorem setFormula_refusedFor (hm : ev.toEngine.FormulasRead ev.memory) (cell : CellAddress)
    (entered : String) :
    ev.RefusedFor (ev.setFormula cell entered)
      (¬ (ev.source.workbook.HasCell cell ∧ ev.registry.Accepts (.ofFormula entered))) := by
  obtain ⟨formulas, -, ⟨hrejects, failure, hset⟩ | ⟨haccepts, hset⟩⟩ :=
    setFormula_eq hm cell entered
  · rw [hset]
    exact ⟨iff_of_true ⟨_, rfl⟩ fun h => hrejects h.2, fun _ _ => agrees_of_formulas ev formulas⟩
  · have hwrite := write_refusedFor { ev with memory := { ev.memory with formulas } } cell
      (.ofFormula entered)
    rw [hset]
    refine ⟨hwrite.refused.trans (not_congr ?_), fun failure h => ?_⟩
    · exact (and_iff_left haccepts).symm
    · exact (agrees_of_formulas ev formulas).trans (hwrite.agrees failure h)

/-- After any operations, a write is refused exactly for a cell that the workbook does not have,
and a formula also if it cannot be read. Then the workbook, the remembered values and what is
recorded of the formulas are as before. A call that is carried out in place on a workbook leaves
it as it was if it is refused, and what it gives otherwise. -/
theorem refused_calls_change_nothing (engine : Engine) (ops : List Operation)
    (cell : CellAddress) :
    let ev := (fresh engine).after ops
    (∀ value, ev.RefusedFor (ev.setValue cell value) (¬ ev.source.workbook.HasCell cell)) ∧
      (∀ entered, ev.RefusedFor (ev.setFormula cell entered)
        (¬ (ev.source.workbook.HasCell cell ∧ ev.registry.Accepts (.ofFormula entered)))) ∧
      ∀ (book : Workbook) (call : Workbook.Call) (book' : Workbook),
        (∀ fault, (Update.ofCall call).on book = (.error fault, book') ↔
          book.called call = .error fault ∧ book' = book) ∧
        ((Update.ofCall call).on book = (.ok (), book') ↔ book.called call = .ok book') := by
  intro ev
  have hread : ev.toEngine.FormulasRead ev.memory :=
    formulasRead_after Engine.formulasRead_empty ops
  refine ⟨fun value => write_refusedFor ev cell _, setFormula_refusedFor hread cell, ?_⟩
  intro book call book'
  rw [Update.on_ofCall]
  cases book.called call with
  | ok given => simp [Update.settled]
  | error fault => simp [Update.settled, eq_comm]

end Evaluator

end Spreadsheet
