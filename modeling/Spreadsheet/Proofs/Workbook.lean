-- SUMMARY: What reading and writing a workbook come to, cell by cell.
import Mathlib.Data.Set.Finite.List
import Spreadsheet.Proofs.References
import Spreadsheet.Source

/-!
# Reading and writing workbooks

When a cell can be read, what a write changes and what it leaves alone.
-/

namespace Spreadsheet

open Std

theorem CellAddress.checkBounds_eq_ok {cell : CellAddress} :
    cell.checkBounds = .ok () ↔
      cell.sheet ≠ "" ∧ Grid.HasRow cell.row ∧ Grid.HasCol cell.col := by
  rw [ne_eq, ← String.isEmpty_iff]
  unfold CellAddress.checkBounds
  by_cases hs : cell.sheet.isEmpty
  · simp [hs, bind, Except.bind, throw, throwThe, MonadExceptOf.throw]
  · by_cases hg : Grid.HasRow cell.row ∧ Grid.HasCol cell.col
    · simp [hs, hg, pure, Except.pure]
    · simp [hs, hg, throw, throwThe, MonadExceptOf.throw]

theorem CellContent.eq_of_isEmpty {content : CellContent} (h : content.isEmpty) :
    content = {} := by
  obtain ⟨value, formula⟩ := content
  cases value <;> cases formula <;> first | rfl | cases h

namespace Workbook

variable {book book' : Workbook} {cell a c : CellAddress} {content : CellContent}

/-! ## Sheets -/

theorem sheet?_eq_of_equal {name name' : String} (h : Text.equalIgnoringCase name name') :
    book.sheet? name = book.sheet? name' := by
  unfold sheet?
  congr 1
  funext sheet
  rw [Bool.eq_iff_iff]
  exact ⟨fun h' => Text.equalIgnoringCase_trans h' h,
    fun h' => Text.equalIgnoringCase_trans h' (Text.equalIgnoringCase_symm h)⟩

theorem equal_of_sheet? {name : String} {sheet : Sheet} (h : book.sheet? name = some sheet) :
    Text.equalIgnoringCase sheet.name name := by
  have hfound := List.find?_some h
  exact hfound

/-- The stored spelling finds the same sheet. -/
theorem sheet?_name {name : String} {sheet : Sheet} (h : book.sheet? name = some sheet) :
    book.sheet? sheet.name = some sheet :=
  (sheet?_eq_of_equal (equal_of_sheet? h)).trans h

/-! ## Reading -/

theorem read_eq_ok :
    book.read cell = .ok content ↔
      (cell.sheet ≠ "" ∧ Grid.HasRow cell.row ∧ Grid.HasCol cell.col) ∧
        ∃ sheet, book.sheet? cell.sheet = some sheet ∧
          content = (sheet.get? cell.row cell.col).getD {} := by
  rw [← CellAddress.checkBounds_eq_ok]
  unfold read
  cases cell.checkBounds with
  | error fault => simp [bind, Except.bind]
  | ok u =>
      cases book.sheet? cell.sheet with
      | none => simp [bind, Except.bind, throw, throwThe, MonadExceptOf.throw]
      | some sheet => simp [bind, Except.bind, pure, Except.pure, eq_comm]

/-- Only finitely many addresses can be read, in whatever case their sheet is spelled. -/
theorem finite_readable (book : Workbook) :
    {cell : CellAddress | ∃ content, book.read cell = .ok content}.Finite := by
  have hchar : Finite Char := Finite.of_injective (fun c : Char => c.val.toBitVec.toFin) <| by
    intro c d h
    exact Char.ext (UInt32.eq_of_toBitVec_eq (BitVec.eq_of_toFin_eq h))
  have hspelling (name : String) : {s : String | Text.equalIgnoringCase name s}.Finite := by
    refine ((List.finite_length_eq Char name.toList.length).image String.ofList).subset ?_
    intro s hs
    refine ⟨s.toList, ?_, String.ofList_toList⟩
    have hmap := congrArg List.length (Text.equalIgnoringCase_iff.mp hs)
    simpa using hmap.symm
  have hspellings : (⋃ sheet ∈ {sheet | sheet ∈ book.sheets},
      {s : String | Text.equalIgnoringCase sheet.name s}).Finite :=
    (List.finite_toSet book.sheets).biUnion fun sheet _ => hspelling sheet.name
  refine ((hspellings.prod ((Set.finite_le_nat Grid.maxRows).prod
    (Set.finite_le_nat Grid.maxCols))).image fun p => (⟨p.1, p.2.1, p.2.2⟩ : CellAddress)).subset ?_
  rintro cell ⟨content, hread⟩
  obtain ⟨⟨-, hrow, hcol⟩, sheet, hsheet, -⟩ := read_eq_ok.mp hread
  refine ⟨(cell.sheet, cell.row, cell.col), ⟨?_, ?_, ?_⟩, rfl⟩
  · exact Set.mem_biUnion (List.mem_of_find?_eq_some hsheet) (equal_of_sheet? hsheet)
  · exact Int.ofNat_le.mp hrow.2
  · exact Int.ofNat_le.mp hcol.2

end Workbook

/-! ## Writing -/

namespace Sheet

variable {sheet : Sheet} {row col : Nat} {content : CellContent}

@[simp] theorem put_name (sheet : Sheet) (row col : Nat) (content : CellContent) :
    (sheet.put row col content).name = sheet.name := by
  unfold put
  split <;> rfl

theorem get?_put_self (h : content.isEmpty = false) :
    (sheet.put row col content).get? row col = some content := by
  unfold put get?
  rw [if_neg (by simp [h])]
  exact TreeMap.getElem?_insert_self

theorem get?_put_of_ne {row' col' : Nat} (h : (row, col) ≠ (row', col')) :
    (sheet.put row col content).get? row' col' = sheet.get? row' col' := by
  unfold put get?
  split
  · rw [TreeMap.getElem?_erase, if_neg fun hc => h (LawfulEqCmp.compare_eq_iff_eq.mp hc)]
  · rw [TreeMap.getElem?_insert, if_neg fun hc => h (LawfulEqCmp.compare_eq_iff_eq.mp hc)]

theorem le_lastRow_put : sheet.lastRow ≤ (sheet.put row col content).lastRow := by
  unfold put
  split
  · exact Nat.le_refl _
  · exact Nat.le_max_left _ _

theorem le_lastCol_put : sheet.lastCol ≤ (sheet.put row col content).lastCol := by
  unfold put
  split
  · exact Nat.le_refl _
  · exact Nat.le_max_left _ _

/-- The sheet has a name, its extent lies in the grid, and the cells that are stored lie in its
extent. -/
structure WellFormed (sheet : Sheet) : Prop where
  name : sheet.name ≠ ""
  rows : sheet.lastRow ≤ Grid.maxRows
  cols : sheet.lastCol ≤ Grid.maxCols
  stored : ∀ row col, (sheet.get? row col).isSome → row ≤ sheet.lastRow ∧ col ≤ sheet.lastCol

theorem WellFormed.put (h : sheet.WellFormed) (hrow : row ≤ Grid.maxRows)
    (hcol : col ≤ Grid.maxCols) : (sheet.put row col content).WellFormed where
  name := put_name sheet row col content ▸ h.name
  rows := by
    unfold Sheet.put
    split
    · exact h.rows
    · exact Nat.max_le.mpr ⟨h.rows, hrow⟩
  cols := by
    unfold Sheet.put
    split
    · exact h.cols
    · exact Nat.max_le.mpr ⟨h.cols, hcol⟩
  stored row' col' hsome := by
    by_cases heq : (row, col) = (row', col')
    · cases heq
      unfold Sheet.put get? at hsome
      split at hsome
      · simp at hsome
      · rename_i hempty
        unfold Sheet.put
        rw [if_neg hempty]
        exact ⟨Nat.le_max_right _ _, Nat.le_max_right _ _⟩
    · rw [get?_put_of_ne heq] at hsome
      obtain ⟨_, _⟩ := h.stored row' col' hsome
      exact ⟨Nat.le_trans ‹_› le_lastRow_put, Nat.le_trans ‹_› le_lastCol_put⟩

end Sheet

namespace Workbook

variable {book book' : Workbook} {a c : CellAddress} {content : CellContent}

theorem find?_updateSheet {f : Sheet → Sheet} (hf : ∀ sheet, (f sheet).name = sheet.name)
    (name name' : String) (sheets : List Sheet) :
    (updateSheet name f sheets).find? (fun sheet => Text.equalIgnoringCase sheet.name name') =
      (sheets.find? fun sheet => Text.equalIgnoringCase sheet.name name').map
        fun sheet => if Text.equalIgnoringCase name name' then f sheet else sheet := by
  induction sheets with
  | nil => rfl
  | cons sheet sheets ih =>
      have htrans (h : Text.equalIgnoringCase sheet.name name) :
          Text.equalIgnoringCase name name' ↔ Text.equalIgnoringCase sheet.name name' :=
        ⟨fun h' => Text.equalIgnoringCase_trans h h',
          fun h' => Text.equalIgnoringCase_trans (Text.equalIgnoringCase_symm h) h'⟩
      unfold updateSheet
      by_cases h : Text.equalIgnoringCase sheet.name name
      · rw [if_pos h, List.find?_cons, List.find?_cons, hf]
        cases h' : Text.equalIgnoringCase sheet.name name' with
        | true => simp [(htrans h).mpr h']
        | false =>
            have hne : Text.equalIgnoringCase name name' = false := by
              rw [Bool.eq_false_iff, ne_eq, htrans h, h']
              simp
            simp [hne]
      · rw [if_neg h, List.find?_cons, List.find?_cons]
        cases h' : Text.equalIgnoringCase sheet.name name' with
        | true =>
            have hne : Text.equalIgnoringCase name name' = false := by
              rw [Bool.eq_false_iff]
              intro hname
              exact h (Text.equalIgnoringCase_trans h' (Text.equalIgnoringCase_symm hname))
            simp [hne]
        | false => exact ih

theorem write_eq_ok :
    book.write a content = .ok book' ↔
      (a.sheet ≠ "" ∧ Grid.HasRow a.row ∧ Grid.HasCol a.col) ∧ book.hasSheet a.sheet ∧
        book' = { book with
          sheets := updateSheet a.sheet (·.put a.row a.col content) book.sheets } := by
  rw [← CellAddress.checkBounds_eq_ok]
  unfold write
  cases a.checkBounds with
  | error fault => simp [bind, Except.bind]
  | ok u =>
      cases book.hasSheet a.sheet with
      | false => simp [bind, Except.bind, throw, throwThe, MonadExceptOf.throw]
      | true => simp [bind, Except.bind, pure, Except.pure, eq_comm]

variable (h : book.write a content = .ok book')
include h

/-- The written sheet has one cell replaced, the others are as before. -/
theorem sheet?_write (name : String) :
    book'.sheet? name = (book.sheet? name).map fun sheet =>
      if Text.equalIgnoringCase a.sheet name then sheet.put a.row a.col content else sheet := by
  obtain ⟨-, -, rfl⟩ := write_eq_ok.mp h
  exact find?_updateSheet (fun sheet => Sheet.put_name _ _ _ _) a.sheet name book.sheets

theorem sheetName?_write : book'.sheetName? = book.sheetName? := by
  funext name
  unfold sheetName?
  rw [sheet?_write h, Option.map_map]
  congr 1
  funext sheet
  simp only [Function.comp_apply]
  split
  · exact Sheet.put_name _ _ _ _
  · rfl

theorem hasSheet_write : book'.hasSheet = book.hasSheet := by
  funext name
  unfold hasSheet
  rw [sheet?_write h, Option.isSome_map]

theorem nameTarget?_write : book'.nameTarget? = book.nameTarget? := by
  obtain ⟨-, -, rfl⟩ := write_eq_ok.mp h
  rfl

/-- Cells other than the written one read as before. -/
theorem read_write
    (hne : ¬ (Text.equalIgnoringCase a.sheet c.sheet ∧ (a.row, a.col) = (c.row, c.col))) :
    book'.read c = book.read c := by
  unfold read
  rw [sheet?_write h]
  cases book.sheet? c.sheet with
  | none => rfl
  | some sheet =>
      simp only [Option.map_some]
      split
      · rename_i hsheet
        rw [Sheet.get?_put_of_ne fun heq => hne ⟨hsheet, heq⟩]
      · rfl

/-- Used parts only grow. -/
theorem extent?_write (name : String) :
    ((book.extent? name).getD (0, 0)).1 ≤ ((book'.extent? name).getD (0, 0)).1 ∧
      ((book.extent? name).getD (0, 0)).2 ≤ ((book'.extent? name).getD (0, 0)).2 := by
  unfold extent?
  rw [sheet?_write h]
  cases book.sheet? name with
  | none => simp
  | some sheet =>
      simp only [Option.map_some, Option.bind_some]
      split
      · have hrow := @Sheet.le_lastRow_put sheet a.row a.col content
        have hcol := @Sheet.le_lastCol_put sheet a.row a.col content
        unfold Sheet.extent?
        split
        · rw [if_pos ⟨by omega, by omega⟩]
          exact ⟨hrow, hcol⟩
        · simp
      · exact ⟨Nat.le_refl _, Nat.le_refl _⟩

omit h

/-! ## Built workbooks -/

/-- The workbooks that can be made from an empty or a new one. -/
inductive Built : Workbook → Prop where
  | empty : Built .empty
  | new : Built .new
  | addSheet {book book' : Workbook} {name : String} :
      Built book → book.addSheet name = .ok book' → Built book'
  | write {book book' : Workbook} {cell : CellAddress} {content : CellContent} :
      Built book → book.write cell content = .ok book' → Built book'
  | defineName {book book' : Workbook} {name refersTo : String} :
      Built book → book.defineName name refersTo = .ok book' → Built book'
  | removeName {book : Workbook} {name : String} : Built book → Built (book.removeName name)

/-- All sheets are well formed, and names stand for areas in the grid. -/
structure WellFormed (book : Workbook) : Prop where
  sheets : ∀ sheet ∈ book.sheets, sheet.WellFormed
  names : ∀ entry ∈ book.names.entries, entry.target.InGrid

theorem wellFormed_of_new {name : String} (h : name ≠ "") :
    Sheet.WellFormed { name } where
  name := h
  rows := Nat.zero_le _
  cols := Nat.zero_le _
  stored row col hsome := by simp [Sheet.get?] at hsome

theorem WellFormed.addSheet {name : String} (hbook : book.WellFormed)
    (h : book.addSheet name = .ok book') : book'.WellFormed := by
  unfold Workbook.addSheet at h
  cases hfault : SheetName.fault? name with
  | some cause => simp [hfault, bind_eq_ok, throw_eq_ok] at h
  | none =>
      simp only [hfault, unless_eq_ok, pure_eq_ok] at h
      obtain ⟨-, rfl⟩ := h
      refine ⟨List.forall_mem_append.mpr ⟨hbook.sheets, ?_⟩, hbook.names⟩
      refine List.forall_mem_singleton.mpr (wellFormed_of_new ?_)
      rintro rfl
      cases hfault

theorem mem_updateSheet {name : String} {f : Sheet → Sheet} {sheets : List Sheet} {sheet : Sheet}
    (h : sheet ∈ updateSheet name f sheets) :
    ∃ sheet' ∈ sheets, sheet = sheet' ∨ sheet = f sheet' := by
  induction sheets with
  | nil => cases h
  | cons head sheets ih =>
      unfold updateSheet at h
      split at h
      · obtain rfl | h := List.mem_cons.mp h
        · exact ⟨head, List.mem_cons_self, .inr rfl⟩
        · exact ⟨sheet, List.mem_cons_of_mem _ h, .inl rfl⟩
      · obtain rfl | h := List.mem_cons.mp h
        · exact ⟨sheet, List.mem_cons_self, .inl rfl⟩
        · obtain ⟨sheet', hmem, hsheet⟩ := ih h
          exact ⟨sheet', List.mem_cons_of_mem _ hmem, hsheet⟩

theorem WellFormed.write (hbook : book.WellFormed) (h : book.write a content = .ok book') :
    book'.WellFormed := by
  obtain ⟨⟨-, hrow, hcol⟩, -, rfl⟩ := write_eq_ok.mp h
  refine ⟨fun sheet hsheet => ?_, hbook.names⟩
  obtain ⟨sheet', hmem, rfl | rfl⟩ := mem_updateSheet hsheet
  · exact hbook.sheets sheet hmem
  · exact (hbook.sheets sheet' hmem).put (Int.ofNat_le.mp hrow.2) (Int.ofNat_le.mp hcol.2)

theorem WellFormed.defineName {name refersTo : String} (hbook : book.WellFormed)
    (h : book.defineName name refersTo = .ok book') : book'.WellFormed := by
  unfold Workbook.defineName DefinedNames.define at h
  simp only [bind_eq_ok, unless_eq_ok, pure_eq_ok] at h
  obtain ⟨first, -, area, harea, sheet, -, names, ⟨-, -, -, rfl⟩, rfl⟩ := h
  refine ⟨hbook.sheets, List.forall_mem_cons.mpr ⟨?_, hbook.names⟩⟩
  exact (Reference.inGrid_of_readArea harea).move sheet

theorem Built.wellFormed (h : book.Built) : book.WellFormed := by
  induction h with
  | empty => exact ⟨by simp [Workbook.empty], by simp [Workbook.empty]⟩
  | new =>
      refine ⟨?_, by simp [Workbook.new]⟩
      exact List.forall_mem_singleton.mpr (wellFormed_of_new (by decide))
  | addSheet _ h ih => exact ih.addSheet h
  | write _ h ih => exact ih.write h
  | defineName _ h ih => exact ih.defineName h
  | @removeName book name _ ih =>
      refine ⟨ih.sheets, fun entry hentry => ih.names entry ?_⟩
      exact List.mem_of_mem_filter hentry

theorem WellFormed.nameTarget? (hbook : book.WellFormed) {word : String} {area : Area}
    (h : book.nameTarget? word = some area) : area.InGrid := by
  obtain ⟨entry, hentry, rfl⟩ := Option.map_eq_some_iff.mp h
  exact hbook.names entry (List.mem_of_find?_eq_some hentry)

theorem WellFormed.ne_empty_of_sheet? (hbook : book.WellFormed) {name : String} {sheet : Sheet}
    (h : book.sheet? name = some sheet) : name ≠ "" := by
  rintro rfl
  have hequal := Text.equalIgnoringCase_iff.mp (equal_of_sheet? h)
  refine (hbook.sheets sheet (List.mem_of_find?_eq_some h)).name ?_
  simpa using hequal

theorem WellFormed.extent?_le (hbook : book.WellFormed) (name : String) :
    ((book.extent? name).getD (0, 0)).1 ≤ Grid.maxRows ∧
      ((book.extent? name).getD (0, 0)).2 ≤ Grid.maxCols := by
  unfold extent?
  cases hsheet : book.sheet? name with
  | none => exact ⟨Nat.zero_le _, Nat.zero_le _⟩
  | some sheet =>
      have hwell := hbook.sheets sheet (List.mem_of_find?_eq_some hsheet)
      simp only [Option.bind_some, Sheet.extent?]
      split
      · exact ⟨hwell.rows, hwell.cols⟩
      · exact ⟨Nat.zero_le _, Nat.zero_le _⟩

/-- Outside the used part of its sheet, no cell is stored. -/
theorem WellFormed.read_blank (hbook : book.WellFormed) (hread : book.read c = .ok content)
    (hout : ¬ (c.row ≤ ((book.extent? c.sheet).getD (0, 0)).1 ∧
      c.col ≤ ((book.extent? c.sheet).getD (0, 0)).2)) : content = {} := by
  obtain ⟨⟨-, hrow, hcol⟩, sheet, hsheet, rfl⟩ := read_eq_ok.mp hread
  have hwell := hbook.sheets sheet (List.mem_of_find?_eq_some hsheet)
  cases hget : sheet.get? c.row c.col with
  | none => rfl
  | some stored =>
      obtain ⟨_, _⟩ := hwell.stored c.row c.col (by rw [hget]; rfl)
      obtain ⟨hrow, -⟩ := hrow
      obtain ⟨hcol, -⟩ := hcol
      refine absurd ?_ hout
      unfold extent?
      simp only [hsheet, Option.bind_some, Sheet.extent?]
      rw [if_pos ⟨by omega, by omega⟩]
      exact ⟨‹_›, ‹_›⟩

/-! ## A workbook of two cells -/

/-- The sheet that holds a truth value in its first cell and a formula beside it. -/
def pairSheet (b : Bool) (text : String) : Sheet :=
  (({ name := "Sheet1" } : Sheet).put 1 1 (.ofValue (.bool b))).put 1 2 { formula := some text }

def pair (b : Bool) (text : String) : Workbook := { sheets := [pairSheet b text] }

/-- The cell that holds the value. -/
def pairValue : CellAddress := ⟨"Sheet1", 1, 1⟩

/-- The cell that holds the formula. -/
def pairFormula : CellAddress := ⟨"Sheet1", 1, 2⟩

section

variable {b : Bool} {text : String}

theorem built_pair (b : Bool) (text : String) : (pair b text).Built := by
  have hfirst : Workbook.new.write pairValue (.ofValue (.bool b)) = .ok
      { sheets := [({ name := "Sheet1" } : Sheet).put 1 1 (.ofValue (.bool b))] } := rfl
  have hsecond : Workbook.write
      { sheets := [({ name := "Sheet1" } : Sheet).put 1 1 (.ofValue (.bool b))] }
      pairFormula { formula := some text } = .ok (pair b text) := rfl
  exact .write (.write .new hfirst) hsecond

theorem sheet?_pair {name : String} {sheet : Sheet} (h : (pair b text).sheet? name = some sheet) :
    sheet = pairSheet b text :=
  List.mem_singleton.mp (List.mem_of_find?_eq_some h)

/-- A cell holds the formula, the value or nothing. -/
theorem read_pair_cases (h : (pair b text).read c = .ok content) :
    (c.row = 1 ∧ c.col = 2 ∧ content = { formula := some text }) ∨
      content = .ofValue (.bool b) ∨ content = {} := by
  obtain ⟨-, sheet, hsheet, rfl⟩ := read_eq_ok.mp h
  obtain rfl := sheet?_pair hsheet
  rw [pairSheet]
  by_cases hsecond : (1, 2) = (c.row, c.col)
  · obtain ⟨hrow, hcol⟩ := Prod.mk.inj hsecond
    rw [← hrow, ← hcol, Sheet.get?_put_self rfl]
    exact .inl ⟨rfl, rfl, rfl⟩
  · rw [Sheet.get?_put_of_ne hsecond]
    by_cases hfirst : (1, 1) = (c.row, c.col)
    · obtain ⟨hrow, hcol⟩ := Prod.mk.inj hfirst
      rw [← hrow, ← hcol, Sheet.get?_put_self rfl]
      exact .inr (.inl rfl)
    · rw [Sheet.get?_put_of_ne hfirst]
      exact .inr (.inr rfl)

/-- The only formula is the one beside the value. -/
theorem read_pair (h : (pair b text).read c = .ok content) (hformula : content.formula ≠ none) :
    c.row = 1 ∧ c.col = 2 ∧ content.formula = some text := by
  obtain ⟨hrow, hcol, rfl⟩ | rfl | rfl := read_pair_cases h
  · exact ⟨hrow, hcol, rfl⟩
  · exact absurd rfl hformula
  · exact absurd rfl hformula

/-- The only value is the one in the first cell. -/
theorem value_pair (h : (pair b text).read c = .ok content) :
    content.value = .bool b ∨ content.value = .blank := by
  obtain ⟨-, -, rfl⟩ | rfl | rfl := read_pair_cases h
  · exact .inr rfl
  · exact .inl rfl
  · exact .inr rfl

end

/-- The workbook that holds a formula in the first cell and one beside it. -/
def formulaPair (first second : String) : Workbook where
  sheets := [(({ name := "Sheet1" } : Sheet).put 1 1 { formula := some first }).put 1 2
    { formula := some second }]

/-- The formulas are in the first cell and in the one beside it. -/
theorem read_formulaPair {first second text : String}
    (h : (formulaPair first second).read c = .ok content) (htext : content.formula = some text) :
    c.row = 1 ∧ c.col = 1 ∧ text = first ∨ c.row = 1 ∧ c.col = 2 ∧ text = second := by
  obtain ⟨-, sheet, hsheet, rfl⟩ := read_eq_ok.mp h
  obtain rfl := List.mem_singleton.mp (List.mem_of_find?_eq_some hsheet)
  by_cases hsecond : (1, 2) = (c.row, c.col)
  · obtain ⟨hrow, hcol⟩ := Prod.mk.inj hsecond
    rw [← hrow, ← hcol, Sheet.get?_put_self rfl] at htext
    exact .inr ⟨hrow.symm, hcol.symm, (Option.some.inj htext).symm⟩
  · rw [Sheet.get?_put_of_ne hsecond] at htext
    by_cases hfirst : (1, 1) = (c.row, c.col)
    · obtain ⟨hrow, hcol⟩ := Prod.mk.inj hfirst
      rw [← hrow, ← hcol, Sheet.get?_put_self rfl] at htext
      exact .inl ⟨hrow.symm, hcol.symm, (Option.some.inj htext).symm⟩
    · rw [Sheet.get?_put_of_ne hfirst] at htext
      cases htext

end Workbook

end Spreadsheet
