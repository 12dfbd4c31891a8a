-- SUMMARY: Evaluations fail only where formulas are nested too deep; other errors are values.
import Spreadsheet.Proofs.Contracts
import Spreadsheet.Proofs.Queries

/-!
# Failures

Errors that a sheet can show are values. Where all stored formulas can be read, a cell of the
grid always has a value, unless its formulas are nested too deep: whatever references are made
on the way lie in the grid and on sheets that exist, and the calls in a formula were counted
when it was read.
-/

namespace Spreadsheet

namespace Workbook

variable {book book' : Workbook} {a c : CellAddress} {content content' : CellContent}

/-- A write leaves cells with the written content or as they were. -/
theorem read_of_write (h : book.write a content = .ok book') (hread : book'.read c = .ok content') :
    content' = content ∨ book.read c = .ok content' := by
  by_cases hsame : Text.equalIgnoringCase a.sheet c.sheet ∧ (a.row, a.col) = (c.row, c.col)
  · refine .inl ?_
    obtain ⟨hequal, hplace⟩ := hsame
    obtain ⟨hrow, hcol⟩ := Prod.mk.inj hplace
    obtain ⟨-, sheet', hsheet', rfl⟩ := read_eq_ok.mp hread
    rw [sheet?_write h, Option.map_eq_some_iff] at hsheet'
    obtain ⟨sheet, -, rfl⟩ := hsheet'
    rw [if_pos hequal, hrow, hcol]
    cases hempty : content.isEmpty with
    | true =>
        unfold Sheet.put Sheet.get?
        rw [if_pos hempty, Std.TreeMap.getElem?_erase_self]
        exact (CellContent.eq_of_isEmpty hempty).symm
    | false =>
        rw [Sheet.get?_put_self hempty]
        rfl
  · exact .inr (read_write h hsame ▸ hread)

theorem read_new (h : new.read c = .ok content) : content = {} := by
  simp only [read, bind_eq_ok] at h
  obtain ⟨-, -, h⟩ := h
  split at h
  · rename_i sheet hsheet
    obtain rfl := List.mem_singleton.mp (List.mem_of_find?_eq_some hsheet)
    cases h
    rfl
  · cases h

end Workbook

namespace Engine

variable {engine : Engine} {c : CellAddress}

/-- All stored formulas can be read. -/
def AllRead (engine : Engine) : Prop :=
  ∀ c content, engine.source.workbook.read c = .ok content → engine.registry.Accepts content

/-- Cells of the grid are asked for, on sheets that exist, and only depth makes them fail. -/
def inGrid (engine : Engine) : Expectation where
  cells c := (∃ stored, engine.source.sheetName? c.sheet = some stored) ∧ Grid.HasRow c.row ∧
    Grid.HasCol c.col
  fails failure := failure = .tooDeep engine.settings.maxDepth

/-- A cell of the grid on a sheet that exists has an address that the source spells. -/
theorem exists_canonical (hbook : engine.source.workbook.WellFormed) (hrow : Grid.HasRow c.row)
    (hcol : Grid.HasCol c.col) (hsheet : engine.source.workbook.hasSheet c.sheet) :
    ∃ c', engine.source.canonical c = .ok c' ∧ engine.inGrid.cells c' := by
  obtain ⟨sheet, hfound⟩ := Option.isSome_iff_exists.mp hsheet
  obtain ⟨stored, hstored⟩ := Source.exists_sheetName? hsheet
  refine ⟨{ c with sheet := stored }, ?_, ⟨stored, Source.spells_of_sheetName? hstored⟩, hrow, hcol⟩
  exact Source.canonical_eq_ok.mpr
    ⟨⟨hbook.ne_empty_of_sheet? hfound, hrow, hcol⟩, stored, hstored, rfl⟩

/-- Cells of the grid on sheets that exist can be read. -/
theorem exists_read (hbook : engine.source.workbook.WellFormed) (hc : engine.inGrid.cells c) :
    ∃ content, engine.source.workbook.read c = .ok content := by
  obtain ⟨⟨stored, hstored⟩, hrow, hcol⟩ := hc
  obtain ⟨sheet, hsheet⟩ : ∃ sheet, engine.source.workbook.sheet? c.sheet = some sheet := by
    unfold Source.sheetName? at hstored
    split at hstored
    · split at hstored
      · rename_i hhas
        exact Option.isSome_iff_exists.mp hhas
      · cases hstored
    · obtain ⟨sheet, hsheet, -⟩ := Option.map_eq_some_iff.mp hstored
      exact ⟨sheet, hsheet⟩
  exact ⟨_, Workbook.read_eq_ok.mpr ⟨⟨hbook.ne_empty_of_sheet? hsheet, hrow, hcol⟩, sheet, hsheet,
    rfl⟩⟩

theorem holding_of_read {content : CellContent} (hall : engine.AllRead)
    (hread : engine.source.workbook.read c = .ok content) :
    engine.holding c = .result (.ok (.scalar content.value)) ∨ engine.IsFormula c := by
  unfold IsFormula holding
  rw [hread]
  cases hformula : content.formula with
  | none =>
      simp only [hformula]
      exact .inl trivial
  | some text =>
      obtain ⟨e, he⟩ := hall c content hread text hformula
      simp only [hformula, he]
      exact .inr ⟨e, rfl⟩

/-- Formulas of the grid, as those entered there, ask only for cells of the grid. -/
theorem meets_inGrid (hregistry : engine.registry = .builtins)
    (hnames : engine.source.NamesInGrid) {text : String} {e : Formula.Expr} {depth : Nat}
    (hc : engine.inGrid.cells c) (he : engine.registry.readFormula text = .ok e) :
    (e.value engine.registry ⟨engine.source, c, depth⟩).Meets
      (.onSheets fun sheet => ∃ stored, engine.source.sheetName? sheet = some stored)
      fun _ => True := by
  refine Formula.Expr.meets_onSheets (regular hregistry) ?_ hnames (fun sheet h => ⟨sheet, h⟩) hc.1
    (Registry.written_of_readFormula he) (fun _ _ _ _ stored h => ⟨stored, h⟩)
    (Registry.readFormula_eq_ok.mp he).2
  exact hregistry ▸ Registry.builtins_givesUp _

theorem fulfils_inGrid (hregistry : engine.registry = .builtins)
    (hbook : engine.source.workbook.WellFormed) (hnames : engine.source.NamesInGrid)
    (hall : engine.AllRead) : engine.Fulfils engine.inGrid where
  tooDeep := rfl
  settled c r hc hr := by
    obtain ⟨content, hread⟩ := exists_read hbook hc
    obtain hresult | ⟨e, he⟩ := holding_of_read hall hread
    · cases Holding.result.inj (hr.symm.trans hresult)
      trivial
    · rw [he] at hr
      cases hr
  formula chain c e hc he _ := by
    obtain ⟨text, hread⟩ := readFormula_of_holding he
    refine (meets_inGrid hregistry hnames hc hread).mono ?_ fun _ _ => trivial
    exact ⟨fun _ _ => trivial, fun y hy => ⟨hy, trivial⟩, fun _ _ _ => trivial, fun _ h => h.elim⟩

end Engine

namespace Evaluator

open Engine

variable {ev ev' : Evaluator} {op : Operation} {events : List Event}

/-- A fresh evaluator of a workbook with an empty sheet. -/
def empty : Evaluator := fresh { source := { workbook := .new } }

/-- The workbook of the evaluator is well formed, and all its formulas can be read. -/
structure Orderly (ev : Evaluator) : Prop where
  formulas : ev.FormulasRead ev.memory
  registry : ev.registry = .builtins
  book : ev.source.workbook.WellFormed
  names : ev.source.NamesInGrid
  stored : ev.AllRead

theorem orderly_fresh {book : Workbook} (hbook : book.Built)
    (hread : ∀ c content, book.read c = .ok content → Registry.builtins.Accepts content)
    (settings : Settings) : (fresh { source := { workbook := book }, settings }).Orderly where
  formulas := formulasRead_empty
  registry := rfl
  book := hbook.wellFormed
  names := Source.namesInGrid_of_wellFormed hbook.wellFormed
  stored := hread

theorem Orderly.step (hev : ev.Orderly) (h : ev.Step op events ev')
    (hread : ev'.FormulasRead ev'.memory) : ev'.Orderly := by
  cases h with
  | idle => exact { hev with formulas := hread }
  | answered _ _ => exact { hev with formulas := hread }
  | written _ hwrite haccepts =>
      refine ⟨hread, hev.registry, hev.book.write hwrite, fun word area harea => ?_, ?_⟩
      · have htargets := congrFun (Source.nameTarget?_write hwrite) word
        exact hev.names word area (htargets.symm.trans harea)
      · intro c content' hc
        obtain rfl | hold := Workbook.read_of_write hwrite hc
        · exact haccepts
        · exact hev.stored c content' hold
  | forgotten => exact { hev with formulas := hread }

theorem Orderly.after (hev : ev.Orderly) (ops : List Operation) : (ev.after ops).Orderly :=
  after_induction ops hev.formulas hev fun _ _ _ _ _ h => h.step

/-- A query that asks only for cells of the grid is answered, unless it is nested too deep. -/
theorem Orderly.reply (hev : ev.Orderly) {query : Query} {q : Inquiry Value}
    (hq : query.inquiry ev.toEngine = .ok q) (hmeets : q.Meets (ev.inGrid.below []) fun _ => True) :
    (∃ v, (ev.reply query).1 = .ok v) ∨
      (ev.reply query).1 = .error (.tooDeep ev.settings.maxDepth) := by
  have hempty : ev.inGrid.Remembered ev.memory := fun _ _ _ _ => trivial
  obtain ⟨-, houtcome⟩ := reply_fulfils
    (fulfils_inGrid hev.registry hev.book hev.names hev.stored) hev.formulas hempty hq hmeets
  cases hreply : (ev.reply query).1 with
  | ok v => exact .inl ⟨v, rfl⟩
  | error failure =>
      rw [hreply] at houtcome
      exact .inr (congrArg Except.error houtcome)

/-- **Errors are values.** Take a workbook whose stored formulas can all be read, and any operations
on a fresh evaluator of it, failed ones included. Whatever references formulas make, the evaluator
then gives each cell of the grid on an existing sheet a value, and so each formula that can be read
and is entered there, or it gives up because formulas are nested deeper than it may. No formula is
malformed then, no call has a wrong number of arguments, and no cell is missing. -/
theorem reply_ok_or_tooDeep {book : Workbook} (hbook : book.Built)
    (hread : ∀ c content, book.read c = .ok content → Registry.builtins.Accepts content)
    (settings : Settings) (ops : List Operation) :
    let ev := (fresh { source := { workbook := book }, settings }).after ops
    ∀ cell : CellAddress, Grid.HasRow cell.row → Grid.HasCol cell.col →
      ev.source.workbook.hasSheet cell.sheet →
      ((∃ v, (ev.evaluate cell).1 = .ok v) ∨
        (ev.evaluate cell).1 = .error (.tooDeep settings.maxDepth)) ∧
      ∀ entered e, Registry.builtins.readFormula entered = .ok e →
        (∃ v, (ev.evaluateFormula entered cell).1 = .ok v) ∨
          (ev.evaluateFormula entered cell).1 = .error (.tooDeep settings.maxDepth) := by
  intro ev cell hrow hcol hsheet
  have hev : ev.Orderly := (orderly_fresh hbook hread settings).after ops
  have hsettings : ev.settings = settings := settings_after formulasRead_empty ops
  obtain ⟨c, hcanonical, hc⟩ := exists_canonical hev.book hrow hcol hsheet
  constructor
  · have hreply := hev.reply (Query.inquiry_cell hcanonical)
      ⟨⟨hc, List.forall_mem_nil _⟩, fun _ _ => trivial⟩
    rwa [hsettings] at hreply
  · intro entered e he
    rw [← hev.registry] at he
    have hq : Query.inquiry ev.toEngine (.formula entered cell) =
        .ok (e.value ev.registry ⟨ev.source, c, 0⟩) := by
      simp only [Query.inquiry, hcanonical, he]
      rfl
    have hreply := hev.reply hq ((meets_inGrid hev.registry hev.names hc he).mono
      ⟨fun _ _ => trivial, fun y hy => ⟨hy, List.forall_mem_nil _⟩, fun _ _ _ => trivial,
        fun _ h => h.elim⟩ fun _ _ => trivial)
    rwa [hsettings] at hreply

set_option maxRecDepth 4000 in
theorem reply_ok_or_tooDeep_pair :
    let ev := (fresh (.pair true "A1")).after [.setValue Workbook.pairValue (.bool false)]
    ((∃ v, (ev.evaluate Workbook.pairFormula).1 = .ok v) ∨
        (ev.evaluate Workbook.pairFormula).1 = .error (.tooDeep 256)) ∧
      ((∃ v, (ev.evaluateFormula "A1" Workbook.pairFormula).1 = .ok v) ∨
        (ev.evaluateFormula "A1" Workbook.pairFormula).1 = .error (.tooDeep 256)) := by
  intro ev
  have hread (c : CellAddress) (content : CellContent)
      (hc : (Workbook.pair true "A1").read c = .ok content) :
      Registry.builtins.Accepts content := by
    intro text htext
    obtain ⟨-, -, hformula⟩ := Workbook.read_pair hc (by rw [htext]; exact nofun)
    cases htext.symm.trans hformula
    exact ⟨firstCell, readFormula_firstCell⟩
  obtain ⟨hcell, hformula⟩ := reply_ok_or_tooDeep (Workbook.built_pair true "A1") hread {}
    [.setValue Workbook.pairValue (.bool false)] Workbook.pairFormula (by decide) (by decide)
    (by decide +kernel)
  exact ⟨hcell, hformula "A1" firstCell readFormula_firstCell⟩

end Evaluator

end Spreadsheet
