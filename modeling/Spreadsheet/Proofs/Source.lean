-- SUMMARY: Addresses as a source spells them, and what a source is like after a write.
import Spreadsheet.Evaluation.Reading
import Spreadsheet.Proofs.Workbook

/-!
# Sources and writes

A source spells the name of each sheet in one way, and addresses in that spelling are told
apart by equality. A write changes what is read of one cell and may bring other cells into
use, which are blank.
-/

namespace Spreadsheet

namespace Source

variable {source : Source} {cell a c : CellAddress}

/-- The sheet goes by the name as it is spelled. -/
def Spells (source : Source) (sheet : String) : Prop := source.sheetName? sheet = some sheet

theorem spells_of_sheetName? {name stored : String} (h : source.sheetName? name = some stored) :
    source.Spells stored := by
  unfold Spells
  unfold sheetName? at h ⊢
  split
  · rename_i hasked
    rw [if_pos hasked] at h
    split at h
    · rename_i hsheet
      cases h
      rw [if_pos hsheet]
    · cases h
  · rename_i hasked
    rw [if_neg hasked] at h
    obtain ⟨sheet, hsheet, rfl⟩ := Option.map_eq_some_iff.mp h
    unfold Workbook.sheetName?
    rw [Workbook.sheet?_name hsheet]
    rfl

theorem exists_sheetName? {name : String} (h : source.workbook.hasSheet name) :
    ∃ stored, source.sheetName? name = some stored := by
  unfold sheetName?
  rw [if_pos h]
  split
  · exact ⟨name, rfl⟩
  · obtain ⟨sheet, hsheet⟩ := Option.isSome_iff_exists.mp h
    exact ⟨sheet.name, congrArg (Option.map Sheet.name) hsheet⟩

/-- The addresses are of the same cell, in whatever case its sheet is spelled. -/
def SameCell (source : Source) (c d : CellAddress) : Prop :=
  (∃ sheet, source.sheetName? c.sheet = some sheet ∧ source.sheetName? d.sheet = some sheet) ∧
    c.row = d.row ∧ c.col = d.col

theorem SameCell.eq (h : source.SameCell a c) (ha : source.Spells a.sheet)
    (hc : source.Spells c.sheet) : a = c := by
  obtain ⟨⟨sheet, hsheet, hsheet'⟩, hrow, hcol⟩ := h
  have hname : a.sheet = c.sheet :=
    Option.some.inj (ha.symm.trans (hsheet.trans (hsheet'.symm.trans hc)))
  obtain ⟨_, _, _⟩ := a
  obtain ⟨_, _, _⟩ := c
  cases hname
  cases hrow
  cases hcol
  rfl

theorem canonical_eq_ok :
    source.canonical cell = .ok c ↔
      (cell.sheet ≠ "" ∧ Grid.HasRow cell.row ∧ Grid.HasCol cell.col) ∧
        ∃ sheet, source.sheetName? cell.sheet = some sheet ∧ c = { cell with sheet } := by
  rw [← CellAddress.checkBounds_eq_ok]
  unfold canonical
  cases cell.checkBounds with
  | error fault => simp [bind, Except.bind]
  | ok _ =>
      cases source.sheetName? cell.sheet with
      | none => simp [bind, Except.bind, throw_eq_ok]
      | some sheet => simp [bind, Except.bind, pure, Except.pure, eq_comm]

theorem canonical_spells (h : source.canonical cell = .ok c) : source.Spells c.sheet := by
  obtain ⟨-, sheet, hsheet, rfl⟩ := canonical_eq_ok.mp h
  exact spells_of_sheetName? hsheet

/-- The canonical form of an address is of the same cells as the address. -/
theorem sameCell_canonical (h : source.canonical cell = .ok a) :
    source.SameCell c cell ↔ source.SameCell c a := by
  obtain ⟨-, sheet, hsheet, rfl⟩ := canonical_eq_ok.mp h
  have hspells : source.sheetName? sheet = some sheet := spells_of_sheetName? hsheet
  simp only [SameCell, hsheet, hspells]

/-- An address as the source spells it is its own canonical form. -/
theorem canonical_self {content : CellContent} (hread : source.workbook.read c = .ok content)
    (hspells : source.Spells c.sheet) : source.canonical c = .ok c := by
  obtain ⟨hbounds, -⟩ := Workbook.read_eq_ok.mp hread
  exact canonical_eq_ok.mpr ⟨hbounds, c.sheet, hspells, rfl⟩

/-! ## What a write changes -/

/-- The cell lies in the used part of its sheet. -/
def Covers (source : Source) (c : CellAddress) : Prop :=
  c.row ≤ (source.extent c.sheet).1 ∧ c.col ≤ (source.extent c.sheet).2

/-- The used parts of the second source cover those of the first. -/
def Extends (source source' : Source) : Prop :=
  ∀ sheet, (source.extent sheet).1 ≤ (source'.extent sheet).1 ∧
    (source.extent sheet).2 ≤ (source'.extent sheet).2

/-- The cell came into use by a write of another one. -/
structure Added (source source' : Source) (a c : CellAddress) : Prop where
  apart : ¬ source.SameCell a c
  row : 1 ≤ c.row
  col : 1 ≤ c.col
  before : ¬ source.Covers c
  after : source'.Covers c

/-- A table has the same shape as before, or is too large as before. -/
def KeepsCut (source source' : Source) : Reading → Prop
  | .table area =>
    let block := area.clip (source.extent area.sheet).1 (source.extent area.sheet).2
    let block' := area.clip (source'.extent area.sheet).1 (source'.extent area.sheet).2
    block' = block ∨ (maxTableCells < block.size ∧ maxTableCells < block'.size)
  | _ => True

/-- The reading is not about the written cell, and comes to a table of the same shape as before. -/
structure Overlooks (source source' : Source) (a : CellAddress) (reading : Reading) : Prop where
  apart : ∀ c, reading.region.contains c → ¬ source.SameCell a c
  cut : source.KeepsCut source' reading

variable {book' : Workbook} {content : CellContent}
  (h : source.workbook.write a content = .ok book')
include h

theorem sheetName?_write :
    Source.sheetName? { source with workbook := book' } = source.sheetName? := by
  funext name
  unfold sheetName?
  simp only [Workbook.hasSheet_write h, Workbook.sheetName?_write h]

theorem nameTarget?_write :
    Source.nameTarget? { source with workbook := book' } = source.nameTarget? := by
  funext name
  unfold nameTarget?
  simp only [Workbook.nameTarget?_write h]

theorem canonical_write :
    Source.canonical { source with workbook := book' } = source.canonical := by
  funext cell
  unfold canonical
  rw [sheetName?_write h]

theorem extends_write : source.Extends { source with workbook := book' } :=
  fun sheet => Workbook.extent?_write h sheet

variable (hstored : source.asAsked = false)
include hstored

/-- Cells other than the written one read as before. -/
theorem read_write (hapart : ¬ source.SameCell a c) : book'.read c = source.workbook.read c := by
  refine Workbook.read_write h ?_
  rintro ⟨hsheet, hplace⟩
  obtain ⟨-, hhas, -⟩ := Workbook.write_eq_ok.mp h
  obtain ⟨sheet, hsheet?⟩ := Option.isSome_iff_exists.mp hhas
  have hstored? (name : String) : source.sheetName? name = source.workbook.sheetName? name := by
    simp only [sheetName?, hstored, Bool.false_eq_true, if_false]
  refine hapart ⟨⟨sheet.name, ?_, ?_⟩, Prod.mk.inj hplace⟩
  · rw [hstored?, Workbook.sheetName?, hsheet?]
    rfl
  · rw [hstored?, Workbook.sheetName?, ← Workbook.sheet?_eq_of_equal hsheet, hsheet?]
    rfl

/-- Cells that came into use are blank. -/
theorem read_added (hbook : source.workbook.WellFormed)
    (hc : source.Added { source with workbook := book' } a c) : book'.read c = .ok {} := by
  obtain ⟨hrow, hcol⟩ := hc.after
  obtain ⟨hrows, hcols⟩ := (hbook.write h).extent?_le c.sheet
  have hused : (source.workbook.sheet? c.sheet).isSome := by
    rw [← Workbook.hasSheet, ← Workbook.hasSheet_write h, Workbook.hasSheet,
      Option.isSome_iff_ne_none]
    intro hnone
    have hone := Nat.le_trans hc.row hrow
    simp [extent, Workbook.extent?, hnone] at hone
  obtain ⟨sheet, hsheet⟩ := Option.isSome_iff_exists.mp hused
  have hbounds : c.sheet ≠ "" ∧ Grid.HasRow c.row ∧ Grid.HasCol c.col :=
    ⟨hbook.ne_empty_of_sheet? hsheet,
      ⟨Int.ofNat_le.mpr hc.row, Int.ofNat_le.mpr (Nat.le_trans hrow hrows)⟩,
      ⟨Int.ofNat_le.mpr hc.col, Int.ofNat_le.mpr (Nat.le_trans hcol hcols)⟩⟩
  have hread : source.workbook.read c = .ok ((sheet.get? c.row c.col).getD {}) :=
    Workbook.read_eq_ok.mpr ⟨hbounds, sheet, hsheet, rfl⟩
  rw [read_write h hstored hc.apart, hread]
  exact congrArg Except.ok (hbook.read_blank hread hc.before)

end Source

end Spreadsheet
