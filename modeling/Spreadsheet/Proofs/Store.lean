-- SUMMARY: A workbook set up by calls keeps what was written: contents, formulas and used parts.
import Mathlib.Data.List.Induction
import Mathlib.Order.Bounds.Basic
import Spreadsheet.Proofs.Calls
import Spreadsheet.Proofs.CellSets
import Spreadsheet.Proofs.Naming

/-!
# What a workbook keeps

Calls on a workbook succeed or are refused. Of those that succeed some write a cell, and these
writes alone determine what the sheets hold: the content of a cell is that of the last write to it,
and the used part of a sheet goes up to the last row and the last column of all writes that were
not empty, also of those that were written over since.
-/

namespace Spreadsheet

open Std

/-- Content that is stored in a cell. -/
structure Write where
  cell : CellAddress
  content : CellContent
  deriving DecidableEq, Repr

namespace Write

/-- The write is to a cell of that sheet, in whatever case the sheet is spelled. -/
def IsOn (w : Write) (sheet : String) : Prop := Text.equalIgnoringCase w.cell.sheet sheet

instance (w : Write) (sheet : String) : Decidable (w.IsOn sheet) :=
  inferInstanceAs (Decidable (_ = true))

/-- The write is to that cell. -/
def GoesTo (w : Write) (cell : CellAddress) : Prop :=
  w.IsOn cell.sheet ∧ (w.cell.row, w.cell.col) = (cell.row, cell.col)

instance (w : Write) (cell : CellAddress) : Decidable (w.GoesTo cell) :=
  inferInstanceAs (Decidable (_ ∧ _))

end Write

/-- The content of the last write to a cell. -/
def lastContent? (ws : List Write) (cell : CellAddress) : Option CellContent :=
  (ws.filter (·.GoesTo cell)).getLast?.map Write.content

/-- The cells of a sheet that were filled at some time, even if they were emptied since. -/
def everFilled (ws : List Write) (sheet : String) : Set CellAddress :=
  {c | ∃ w ∈ ws, w.IsOn sheet ∧ w.content.isEmpty = false ∧ w.cell = c}

section History

variable {ws : List Write} {w : Write} {cell : CellAddress} {sheet : String}

theorem lastContent?_concat :
    lastContent? (ws ++ [w]) cell =
      if w.GoesTo cell then some w.content else lastContent? ws cell := by
  unfold lastContent?
  rw [List.filter_append, List.filter_singleton]
  by_cases h : w.GoesTo cell
  · simp [h]
  · simp [h]

theorem exists_of_lastContent? {content : CellContent} (h : lastContent? ws cell = some content) :
    ∃ w ∈ ws, w.GoesTo cell ∧ w.content = content := by
  obtain ⟨w, hw, rfl⟩ := Option.map_eq_some_iff.mp h
  have hmem := List.mem_of_getLast? hw
  rw [List.mem_filter, decide_eq_true_eq] at hmem
  exact ⟨w, hmem.1, hmem.2, rfl⟩

theorem isOn_iff_of_equal {name name' : String} (h : Text.equalIgnoringCase name name') :
    w.IsOn name ↔ w.IsOn name' :=
  ⟨fun hon => Text.equalIgnoringCase_trans hon h,
    fun hon => Text.equalIgnoringCase_trans hon (Text.equalIgnoringCase_symm h)⟩

theorem lastContent?_eq_of_equal {name : String} (h : Text.equalIgnoringCase name cell.sheet) :
    lastContent? ws ⟨name, cell.row, cell.col⟩ = lastContent? ws cell := by
  have hgoes (w : Write) : w.GoesTo ⟨name, cell.row, cell.col⟩ ↔ w.GoesTo cell :=
    and_congr_left' (isOn_iff_of_equal h)
  simp only [lastContent?, hgoes]

theorem everFilled_eq_of_equal {name : String} (h : Text.equalIgnoringCase name sheet) :
    everFilled ws name = everFilled ws sheet := by
  unfold everFilled
  simp only [isOn_iff_of_equal h]

theorem mem_everFilled_concat {c : CellAddress} :
    c ∈ everFilled (ws ++ [w]) sheet ↔
      (w.IsOn sheet ∧ w.content.isEmpty = false ∧ w.cell = c) ∨ c ∈ everFilled ws sheet := by
  constructor
  · rintro ⟨w', hmem, hw⟩
    rcases List.mem_append.mp hmem with hmem | hmem
    · exact .inr ⟨w', hmem, hw⟩
    · obtain rfl := List.mem_singleton.mp hmem
      exact .inl hw
  · rintro (hw | ⟨w', hmem, hw⟩)
    · exact ⟨w, by simp, hw⟩
    · exact ⟨w', List.mem_append_left _ hmem, hw⟩

theorem everFilled_concat_of_not (h : ¬ (w.IsOn sheet ∧ w.content.isEmpty = false)) :
    everFilled (ws ++ [w]) sheet = everFilled ws sheet := by
  ext c
  rw [mem_everFilled_concat]
  apply or_iff_right
  rintro ⟨hon, hfull, -⟩
  exact h ⟨hon, hfull⟩

theorem everFilled_concat (hon : w.IsOn sheet) (hfull : w.content.isEmpty = false) :
    everFilled (ws ++ [w]) sheet = insert w.cell (everFilled ws sheet) := by
  ext c
  rw [mem_everFilled_concat, Set.mem_insert_iff, eq_comm (a := c)]
  simp only [hon, hfull, true_and]

theorem everFilled_mono {ws' : List Write} (h : ws ⊆ ws') :
    everFilled ws sheet ⊆ everFilled ws' sheet := by
  rintro c ⟨w, hmem, hw⟩
  exact ⟨w, h hmem, hw⟩

end History

/-! ## One sheet -/

namespace Sheet

/-- The sheet holds what was written on it: in each cell the last content unless that was empty,
and as its last row and column the greatest of a cell that was filled, or zero if none was. -/
structure Holds (sheet : Sheet) (ws : List Write) : Prop where
  stored : ∀ row col, sheet.get? row col =
    (lastContent? ws ⟨sheet.name, row, col⟩).filter fun content => !content.isEmpty
  lastRow : IsGreatest (insert 0 (CellAddress.row '' everFilled ws sheet.name)) sheet.lastRow
  lastCol : IsGreatest (insert 0 (CellAddress.col '' everFilled ws sheet.name)) sheet.lastCol

variable {sheet : Sheet} {ws : List Write} {w : Write} {name : String} {row col : Nat}
  {content : CellContent}

theorem get?_put (row' col' : Nat) :
    (sheet.put row col content).get? row' col' =
      if (row, col) = (row', col') then (some content).filter fun content => !content.isEmpty
      else sheet.get? row' col' := by
  split
  · rename_i heq
    cases heq
    cases hempty : content.isEmpty with
    | true => simp [put, get?, hempty, Option.filter_some]
    | false => simp [get?_put_self hempty, hempty, Option.filter_some]
  · rename_i hne
    exact get?_put_of_ne hne

theorem lastRow_put :
    (sheet.put row col content).lastRow =
      if content.isEmpty then sheet.lastRow else max sheet.lastRow row := by
  unfold put
  split <;> rfl

theorem lastCol_put :
    (sheet.put row col content).lastCol =
      if content.isEmpty then sheet.lastCol else max sheet.lastCol col := by
  unfold put
  split <;> rfl

/-- Only content that is not empty can raise the greatest row or column. -/
theorem isGreatest_concat {f : CellAddress → Nat} {n : Nat} (hon : w.IsOn name)
    (h : IsGreatest (insert 0 (f '' everFilled ws name)) n) :
    IsGreatest (insert 0 (f '' everFilled (ws ++ [w]) name))
      (if w.content.isEmpty then n else max n (f w.cell)) := by
  split
  · rename_i hempty
    rw [everFilled_concat_of_not fun hw => by simp [hempty] at hw]
    exact h
  · rename_i hfull
    rw [everFilled_concat hon (by simpa using hfull), Set.image_insert_eq, Set.insert_comm,
      max_comm]
    exact h.insert (f w.cell)

/-- A write on the sheet. -/
theorem Holds.put (h : sheet.Holds ws) (hon : w.IsOn sheet.name) :
    (sheet.put w.cell.row w.cell.col w.content).Holds (ws ++ [w]) where
  stored row col := by
    rw [get?_put, put_name, lastContent?_concat]
    by_cases hplace : (w.cell.row, w.cell.col) = (row, col)
    · rw [if_pos hplace, if_pos ⟨hon, hplace⟩]
    · rw [if_neg hplace, if_neg fun hgoes => hplace hgoes.2]
      exact h.stored row col
  lastRow := by
    rw [lastRow_put, put_name]
    exact isGreatest_concat hon h.lastRow
  lastCol := by
    rw [lastCol_put, put_name]
    exact isGreatest_concat hon h.lastCol

/-- A write on another sheet. -/
theorem Holds.elsewhere (h : sheet.Holds ws) (hon : ¬ w.IsOn sheet.name) :
    sheet.Holds (ws ++ [w]) where
  stored row col := by
    rw [lastContent?_concat, if_neg fun hgoes => hon hgoes.1]
    exact h.stored row col
  lastRow := by
    rw [everFilled_concat_of_not fun hw => hon hw.1]
    exact h.lastRow
  lastCol := by
    rw [everFilled_concat_of_not fun hw => hon hw.1]
    exact h.lastCol

/-- A new sheet holds what was written on it: nothing. -/
theorem holds_new (h : ∀ w ∈ ws, ¬ w.IsOn name) : Sheet.Holds { name } ws := by
  have hnone : everFilled ws name = ∅ := by
    ext c
    refine iff_of_false ?_ (Set.notMem_empty c)
    rintro ⟨w, hmem, hon, -⟩
    exact h w hmem hon
  refine ⟨fun row col => ?_, ?_, ?_⟩
  · cases hlast : lastContent? ws ⟨name, row, col⟩ with
    | none => simp [get?]
    | some content =>
        obtain ⟨w, hmem, hgoes, -⟩ := exists_of_lastContent? hlast
        exact absurd hgoes.1 (h w hmem)
  · simp [hnone, isGreatest_singleton]
  · simp [hnone, isGreatest_singleton]

theorem Holds.getD_get? (h : sheet.Holds ws) (row col : Nat) :
    (sheet.get? row col).getD {} = (lastContent? ws ⟨sheet.name, row, col⟩).getD {} := by
  rw [h.stored]
  cases lastContent? ws ⟨sheet.name, row, col⟩ with
  | none => rfl
  | some content =>
      cases hempty : content.isEmpty with
      | true =>
          rw [CellContent.eq_of_isEmpty hempty]
          rfl
      | false => simp [Option.filter_some, hempty]

/-- What is stored was written, and was not empty. -/
theorem Holds.exists_write (h : sheet.Holds ws) (hget : sheet.get? row col = some content) :
    ∃ w ∈ ws, w.GoesTo ⟨sheet.name, row, col⟩ ∧ w.content.isEmpty = false := by
  rw [h.stored, Option.filter_eq_some_iff] at hget
  obtain ⟨hlast, hfull⟩ := hget
  obtain ⟨w, hmem, hgoes, rfl⟩ := exists_of_lastContent? hlast
  exact ⟨w, hmem, hgoes, by simpa using hfull⟩

/-! ### The formulas of a sheet -/

theorem mem_formulas {text : String} :
    ((row, col), text) ∈ sheet.formulas ↔
      ∃ content, sheet.get? row col = some content ∧ content.formula = some text := by
  unfold formulas get?
  simp only [List.mem_filterMap, Prod.exists, TreeMap.mem_toList_iff_getElem?_eq_some,
    Option.map_eq_some_iff, Prod.mk.injEq]
  constructor
  · rintro ⟨_, _, content, hget, _, htext, ⟨rfl, rfl⟩, rfl⟩
    exact ⟨content, hget, htext⟩
  · rintro ⟨content, hget, htext⟩
    exact ⟨row, col, content, hget, text, htext, ⟨rfl, rfl⟩, rfl⟩

theorem comparePlaces_eq_lt {p q : Nat × Nat} :
    comparePlaces p q = .lt ↔ p.1 < q.1 ∨ p.1 = q.1 ∧ p.2 < q.2 := by
  have hcompare : comparePlaces p q = (compare p.1 q.1).then (compare p.2 q.2) := rfl
  rw [hcompare, Ordering.then_eq_lt, Nat.compare_eq_lt, Nat.compare_eq_eq, Nat.compare_eq_lt]

/-- The formulas are listed row by row. -/
theorem pairwise_formulas (sheet : Sheet) :
    sheet.formulas.Pairwise fun a b => a.1.1 < b.1.1 ∨ a.1.1 = b.1.1 ∧ a.1.2 < b.1.2 := by
  unfold formulas
  refine List.pairwise_filterMap.mpr (TreeMap.ordered_keys_toList.imp ?_)
  intro a b hlt a' ha b' hb
  obtain ⟨_, -, rfl⟩ := Option.map_eq_some_iff.mp ha
  obtain ⟨_, -, rfl⟩ := Option.map_eq_some_iff.mp hb
  exact comparePlaces_eq_lt.mp hlt

end Sheet

/-! ## Whole workbooks -/

namespace Workbook

/-- What a call writes, if it is one that writes. -/
def write? (book : Workbook) : Call → Option Write
  | .setValue place value =>
    (book.resolve place).toOption.map fun cell => ⟨cell, .ofValue value⟩
  | .setFormula place entered =>
    (book.resolve place).toOption.map fun cell => ⟨cell, .ofFormula entered⟩
  | .write cell content => some ⟨cell, content⟩
  | .addSheet _ | .defineName .. | .removeName _ => none

/-- What was written by some calls, made in order. Those that are refused write nothing. -/
def writes (book : Workbook) : List Call → List Write
  | [] => []
  | call :: calls =>
    match book.called call with
    | .ok book' => (book.write? call).toList ++ book'.writes calls
    | .error _ => book.writes calls

/-- The sheets hold what was written, and it was written in their grids. -/
structure Holds (book : Workbook) (ws : List Write) : Prop where
  /-- No two sheets have one name, in whatever case it is spelled. -/
  apart : book.sheets.Pairwise fun s t => ¬ Text.equalIgnoringCase s.name t.name
  sheets : ∀ sheet ∈ book.sheets, sheet.Holds ws
  written : ∀ w ∈ ws, book.HasCell w.cell

variable {book book' : Workbook} {ws : List Write} {w : Write} {name : String}

theorem not_isOn_of_hasSheet (h : ∀ w ∈ ws, book.HasCell w.cell) (hname : ¬ book.hasSheet name) :
    ∀ w ∈ ws, ¬ w.IsOn name := by
  intro w hmem hon
  apply hname
  rw [hasSheet, ← sheet?_eq_of_equal hon]
  exact (h w hmem).2

/-- With names that are told apart, at most one sheet is updated. -/
theorem updateSheet_eq_map {sheets : List Sheet} (f : Sheet → Sheet)
    (h : sheets.Pairwise fun s t => ¬ Text.equalIgnoringCase s.name t.name) :
    updateSheet name f sheets =
      sheets.map fun sheet => if Text.equalIgnoringCase sheet.name name then f sheet else sheet := by
  induction sheets with
  | nil => rfl
  | cons sheet sheets ih =>
      obtain ⟨hhead, htail⟩ := List.pairwise_cons.mp h
      rw [updateSheet, List.map_cons]
      split
      · rename_i hequal
        have hrest (t : Sheet) (ht : t ∈ sheets) : ¬ Text.equalIgnoringCase t.name name :=
          fun hequal' => hhead t ht
            (Text.equalIgnoringCase_trans hequal (Text.equalIgnoringCase_symm hequal'))
        rw [List.map_congr_left fun t ht => if_neg (hrest t ht), List.map_id']
      · rw [ih htail]

/-! ### What each call keeps -/

theorem Holds.write (h : book.Holds ws) (hwrite : book.write w.cell w.content = .ok book') :
    book'.Holds (ws ++ [w]) := by
  obtain ⟨hbounds, hsheet, hbook'⟩ := write_eq_ok.mp hwrite
  have hhas := hasSheet_write hwrite
  rw [updateSheet_eq_map _ h.apart] at hbook'
  refine ⟨?_, ?_, ?_⟩
  · rw [hbook', List.pairwise_map]
    refine h.apart.imp ?_
    intro s t hst
    split <;> split <;> simpa using hst
  · -- the write is on the one sheet that is updated, and elsewhere for the others
    rw [hbook']
    refine List.forall_mem_map.mpr fun sheet hmem => ?_
    have hholds := h.sheets sheet hmem
    split
    · rename_i hequal
      exact hholds.put (Text.equalIgnoringCase_symm hequal)
    · rename_i hne
      exact hholds.elsewhere fun hon => hne (Text.equalIgnoringCase_symm hon)
  · intro w' hmem
    rw [HasCell, hhas]
    rcases List.mem_append.mp hmem with hmem | hmem
    · exact h.written w' hmem
    · obtain rfl := List.mem_singleton.mp hmem
      exact ⟨hbounds, hsheet⟩

theorem Holds.addSheet (h : book.Holds ws) (hadd : book.addSheet name = .ok book') :
    book'.Holds ws := by
  obtain ⟨-, hfresh, rfl⟩ := addSheet_eq_ok.mp hadd
  have hnone := Option.isSome_eq_false_iff.mp hfresh
  refine ⟨List.pairwise_append.mpr ⟨h.apart, List.pairwise_singleton _ _, ?_⟩, ?_, ?_⟩
  · intro s hs t ht
    obtain rfl := List.mem_singleton.mp ht
    exact List.find?_eq_none.mp (Option.isNone_iff_eq_none.mp hnone) s hs
  · refine List.forall_mem_append.mpr ⟨h.sheets, List.forall_mem_singleton.mpr ?_⟩
    exact Sheet.holds_new (not_isOn_of_hasSheet h.written (by simp [hfresh]))
  · intro w hmem
    obtain ⟨hbounds, hsheet⟩ := h.written w hmem
    refine ⟨hbounds, ?_⟩
    unfold hasSheet sheet? at hsheet ⊢
    rw [List.find?_append, Option.isSome_or, hsheet, Bool.true_or]

theorem Holds.called (h : book.Holds ws) {call : Call} (hcall : book.called call = .ok book') :
    book'.Holds (ws ++ (book.write? call).toList) := by
  cases call with
  | addSheet name =>
      rw [write?, Option.toList_none, List.append_nil]
      exact h.addSheet hcall
  | setValue place value =>
      obtain ⟨cell, hcell, hwrite⟩ := bind_eq_ok.mp hcall
      simp only [write?, hcell]
      exact h.write (w := ⟨cell, .ofValue value⟩) hwrite
  | setFormula place entered =>
      obtain ⟨cell, hcell, hwrite⟩ := bind_eq_ok.mp hcall
      simp only [write?, hcell]
      exact h.write (w := ⟨cell, .ofFormula entered⟩) hwrite
  | write cell content => exact h.write (w := ⟨cell, content⟩) hcall
  | defineName name refersTo =>
      obtain ⟨_, _, _, -, -, -, -, -, rfl⟩ := defineName_eq_ok.mp hcall
      rw [write?, Option.toList_none, List.append_nil]
      exact ⟨h.apart, h.sheets, h.written⟩
  | removeName name =>
      cases hcall
      rw [write?, Option.toList_none, List.append_nil]
      exact ⟨h.apart, h.sheets, h.written⟩

/-- The workbook holds what was written before and what the calls write. -/
theorem Holds.after (h : book.Holds ws) (calls : List Call) :
    (book.after calls).Holds (ws ++ book.writes calls) := by
  induction calls generalizing book ws with
  | nil =>
      rw [writes, List.append_nil]
      exact h
  | cons call calls ih =>
      simp only [Workbook.after, writes]
      cases hcall : book.called call with
      | ok book' =>
          rw [← List.append_assoc]
          exact ih (h.called hcall)
      | error fault => exact ih h

theorem writes_append (book : Workbook) (calls more : List Call) :
    book.writes (calls ++ more) = book.writes calls ++ (book.after calls).writes more := by
  induction calls generalizing book with
  | nil => rfl
  | cons call calls ih =>
      simp only [List.cons_append, writes, Workbook.after]
      cases book.called call with
      | ok book' =>
          rw [List.append_assoc]
          exact congrArg _ (ih book')
      | error fault => exact ih book

/-! ### Reading -/

theorem Holds.sheet?_eq_some (h : book.Holds ws) {sheet : Sheet} :
    book.sheet? name = some sheet ↔
      sheet ∈ book.sheets ∧ Text.equalIgnoringCase sheet.name name := by
  constructor
  · intro hsheet
    exact ⟨List.mem_of_find?_eq_some hsheet, equal_of_sheet? hsheet⟩
  · rintro ⟨hmem, hequal⟩
    obtain ⟨found, hfound⟩ : ∃ found, book.sheet? name = some found :=
      Option.isSome_iff_exists.mp (List.find?_isSome.mpr ⟨sheet, hmem, hequal⟩)
    have hsymm : Symm fun s t : Sheet => ¬ Text.equalIgnoringCase s.name t.name :=
      ⟨fun s t hst hts => hst (Text.equalIgnoringCase_symm hts)⟩
    have hsame : Text.equalIgnoringCase found.name sheet.name :=
      Text.equalIgnoringCase_trans (equal_of_sheet? hfound) (Text.equalIgnoringCase_symm hequal)
    rw [hfound, Option.some_inj]
    by_contra hne
    exact h.apart.forall (List.mem_of_find?_eq_some hfound) hmem hne hsame

theorem hasCell_of_goesTo {cell : CellAddress} (h : book.HasCell w.cell) (hgoes : w.GoesTo cell) :
    book.HasCell cell := by
  obtain ⟨sheet, row, col⟩ := cell
  obtain ⟨hon, hplace⟩ := hgoes
  obtain ⟨rfl, rfl⟩ := Prod.mk.inj hplace
  exact h.of_equal hon

theorem Holds.read_eq_ok (h : book.Holds ws) {cell : CellAddress} {content : CellContent} :
    book.read cell = .ok content ↔
      book.HasCell cell ∧ content = (lastContent? ws cell).getD {} := by
  rw [Workbook.read_eq_ok, HasCell, hasSheet, and_assoc (c := content = _)]
  refine and_congr_right fun _ => ?_
  cases hsheet : book.sheet? cell.sheet with
  | none => simp
  | some sheet =>
      obtain ⟨hmem, hequal⟩ := h.sheet?_eq_some.mp hsheet
      rw [← lastContent?_eq_of_equal hequal, ← (h.sheets sheet hmem).getD_get?]
      simp

/-! ### Listing formulas -/

/-- The first cell is on an earlier sheet than the second, or before it on the same one, row by
row. -/
def Before (book : Workbook) (c d : CellAddress) : Prop :=
  (book.sheets.map Sheet.name).idxOf c.sheet < (book.sheets.map Sheet.name).idxOf d.sheet ∨
    c.sheet = d.sheet ∧ Area.RowMajor c d

/-- Members that occur once are found in their order. -/
theorem pairwise_idxOf {names : List String} (h : names.Nodup) :
    names.Pairwise fun a b => names.idxOf a < names.idxOf b := by
  rw [List.pairwise_iff_getElem]
  intro i j hi hj hij
  rw [h.idxOf_getElem i hi, h.idxOf_getElem j hj]
  exact hij

theorem mem_formulaCells {cell : CellAddress} :
    cell ∈ book.formulaCells ↔ ∃ sheet ∈ book.sheets, sheet.name = cell.sheet ∧
      ∃ content, sheet.get? cell.row cell.col = some content ∧ content.isFormula := by
  unfold formulaCells
  simp only [List.mem_flatMap, List.mem_map, Prod.exists, Sheet.mem_formulas, CellContent.isFormula,
    Option.isSome_iff_exists]
  constructor
  · rintro ⟨sheet, hmem, row, col, text, ⟨content, hget, htext⟩, rfl⟩
    exact ⟨sheet, hmem, rfl, content, hget, text, htext⟩
  · rintro ⟨sheet, hmem, hname, content, hget, text, htext⟩
    refine ⟨sheet, hmem, cell.row, cell.col, text, ⟨content, hget, htext⟩, ?_⟩
    rw [hname]

theorem Holds.formulas (h : book.Holds ws) {cell : CellAddress} :
    cell ∈ book.formulaCells ↔
      book.Stores cell.sheet ∧ ∃ content, book.read cell = .ok content ∧ content.isFormula := by
  rw [mem_formulaCells]
  constructor
  · rintro ⟨sheet, hmem, hname, content, hget, hformula⟩
    have hsheet : book.sheet? cell.sheet = some sheet :=
      h.sheet?_eq_some.mpr ⟨hmem, hname ▸ Text.equalIgnoringCase_refl _⟩
    obtain ⟨w, hw, hgoes, -⟩ := (h.sheets sheet hmem).exists_write hget
    rw [hname] at hgoes
    obtain ⟨hbounds, -⟩ := hasCell_of_goesTo (h.written w hw) hgoes
    refine ⟨Option.map_eq_some_iff.mpr ⟨sheet, hsheet, hname⟩, content, ?_, hformula⟩
    exact Workbook.read_eq_ok.mpr ⟨hbounds, sheet, hsheet, by rw [hget, Option.getD_some]⟩
  · rintro ⟨hstores, content, hread, hformula⟩
    obtain ⟨-, sheet, hsheet, rfl⟩ := Workbook.read_eq_ok.mp hread
    obtain ⟨sheet', hsheet', hname⟩ := Option.map_eq_some_iff.mp hstores
    obtain rfl := Option.some.inj (hsheet'.symm.trans hsheet)
    refine ⟨sheet', List.mem_of_find?_eq_some hsheet, hname, ?_⟩
    cases hget : sheet'.get? cell.row cell.col with
    | none => simp [hget, CellContent.isFormula] at hformula
    | some content => exact ⟨content, rfl, by simpa [hget] using hformula⟩

theorem Holds.ordered (h : book.Holds ws) : book.formulaCells.Pairwise book.Before := by
  unfold formulaCells
  rw [List.pairwise_flatMap]
  constructor
  · intro sheet hmem
    rw [List.pairwise_map]
    refine sheet.pairwise_formulas.imp ?_
    intro a b hab
    exact .inr ⟨rfl, hab⟩
  · have hnames : (book.sheets.map Sheet.name).Nodup := by
      refine List.pairwise_map.mpr (h.apart.imp ?_)
      intro s t hst hname
      exact hst (hname ▸ Text.equalIgnoringCase_refl _)
    refine (List.pairwise_map.mp (pairwise_idxOf hnames)).imp ?_
    intro s t hst c hc d hd
    obtain ⟨_, -, rfl⟩ := List.mem_map.mp hc
    obtain ⟨_, -, rfl⟩ := List.mem_map.mp hd
    exact .inl hst

theorem Holds.nodup (h : book.Holds ws) : book.formulaCells.Nodup := by
  refine h.ordered.imp ?_
  rintro c d hbefore rfl
  rcases hbefore with hsheet | ⟨-, hrow | ⟨-, hcol⟩⟩
  · exact Nat.lt_irrefl _ hsheet
  · exact Nat.lt_irrefl _ hrow
  · exact Nat.lt_irrefl _ hcol

/-! ### Used parts -/

/-- Rows and columns count from one, so zero is not the greatest once a cell was filled. -/
theorem isGreatest_of_insert_zero {f : CellAddress → Nat} {cells : Set CellAddress} {n : Nat}
    (h : IsGreatest (insert 0 (f '' cells)) n) (hcells : cells.Nonempty)
    (hpos : ∀ c ∈ cells, 1 ≤ f c) : 0 < n ∧ IsGreatest (f '' cells) n := by
  obtain ⟨c, hc⟩ := hcells
  have hn : 0 < n := Nat.lt_of_lt_of_le (hpos c hc) (h.2 (.inr ⟨c, hc, rfl⟩))
  refine ⟨hn, ?_, fun k hk => h.2 (.inr hk)⟩
  rcases h.1 with hzero | hmem
  · exact absurd hzero (Nat.ne_of_gt hn)
  · exact hmem

/-- A sheet that nothing was written to is not used, and others are used up to the last row and
column of what was written. -/
theorem Holds.extent?_cases (h : book.Holds ws) (name : String) :
    (book.extent? name = none ∧ everFilled ws name = ∅) ∨
      ∃ rows cols, book.extent? name = some (rows, cols) ∧
        IsGreatest (CellAddress.row '' everFilled ws name) rows ∧
        IsGreatest (CellAddress.col '' everFilled ws name) cols := by
  unfold extent?
  cases hsheet : book.sheet? name with
  | none =>
      refine .inl ⟨rfl, Set.eq_empty_iff_forall_notMem.mpr ?_⟩
      rintro c ⟨w, hmem, hon, -⟩
      exact not_isOn_of_hasSheet h.written (by simp [hasSheet, hsheet]) w hmem hon
  | some sheet =>
      obtain ⟨hmem, hequal⟩ := h.sheet?_eq_some.mp hsheet
      have hholds := h.sheets sheet hmem
      rw [← everFilled_eq_of_equal hequal, Option.bind_some, Sheet.extent?]
      rcases Set.eq_empty_or_nonempty (everFilled ws sheet.name) with hempty | hfilled
      · have hzero : sheet.lastRow = 0 := by
          have hrow := hholds.lastRow.1
          simpa [hempty] using hrow
        exact .inl ⟨if_neg (by simp [hzero]), hempty⟩
      · have hgrid (c : CellAddress) (hc : c ∈ everFilled ws sheet.name) :
            1 ≤ c.row ∧ 1 ≤ c.col := by
          obtain ⟨w, hw, -, -, rfl⟩ := hc
          obtain ⟨⟨-, hrow, hcol⟩, -⟩ := h.written w hw
          exact ⟨Int.ofNat_le.mp hrow.1, Int.ofNat_le.mp hcol.1⟩
        obtain ⟨hrow, hrows⟩ :=
          isGreatest_of_insert_zero hholds.lastRow hfilled fun c hc => (hgrid c hc).1
        obtain ⟨hcol, hcols⟩ :=
          isGreatest_of_insert_zero hholds.lastCol hfilled fun c hc => (hgrid c hc).2
        exact .inr ⟨_, _, if_pos ⟨hrow, hcol⟩, hrows, hcols⟩

theorem Holds.unused (h : book.Holds ws) (name : String) :
    book.extent? name = none ↔ everFilled ws name = ∅ := by
  rcases h.extent?_cases name with ⟨hnone, hempty⟩ | ⟨rows, cols, hsome, hrows, -⟩
  · exact iff_of_true hnone hempty
  · refine iff_of_false (by simp [hsome]) ?_
    exact (Set.image_nonempty.mp hrows.nonempty).ne_empty

theorem Holds.used (h : book.Holds ws) {rows cols : Nat} :
    book.extent? name = some (rows, cols) ↔
      IsGreatest (CellAddress.row '' everFilled ws name) rows ∧
        IsGreatest (CellAddress.col '' everFilled ws name) cols := by
  rcases h.extent?_cases name with ⟨hnone, hempty⟩ | ⟨rows', cols', hsome, hrows, hcols⟩
  · refine iff_of_false (by simp [hnone]) ?_
    rintro ⟨hrows, -⟩
    exact (Set.image_nonempty.mp hrows.nonempty).ne_empty hempty
  · rw [hsome]
    constructor
    · rintro ⟨⟩
      exact ⟨hrows, hcols⟩
    · rintro ⟨hrows', hcols'⟩
      rw [hrows.unique hrows', hcols.unique hcols']

theorem Holds.covers (h : book.Holds ws) {sheet : Sheet} (hmem : sheet ∈ book.sheets)
    {row col : Nat} (hstored : (sheet.get? row col).isSome) :
    ∃ rows cols, book.extent? sheet.name = some (rows, cols) ∧ row ≤ rows ∧ col ≤ cols := by
  obtain ⟨content, hget⟩ := Option.isSome_iff_exists.mp hstored
  obtain ⟨w, hw, ⟨hon, hplace⟩, hfull⟩ := (h.sheets sheet hmem).exists_write hget
  obtain ⟨rfl, rfl⟩ := Prod.mk.inj hplace
  have hfilled : w.cell ∈ everFilled ws sheet.name := ⟨w, hw, hon, hfull, rfl⟩
  rcases h.extent?_cases sheet.name with ⟨-, hempty⟩ | ⟨rows, cols, hsome, hrows, hcols⟩
  · rw [hempty] at hfilled
    cases hfilled
  · exact ⟨rows, cols, hsome, hrows.2 ⟨_, hfilled, rfl⟩, hcols.2 ⟨_, hfilled, rfl⟩⟩

/-- Whatever part of a sheet is used is used in the second workbook too. -/
def Grows (book book' : Workbook) : Prop :=
  ∀ name rows cols, book.extent? name = some (rows, cols) →
    ∃ rows' cols', book'.extent? name = some (rows', cols') ∧ rows ≤ rows' ∧ cols ≤ cols'

theorem Holds.grows {ws' : List Write} (h : book.Holds ws) (h' : book'.Holds ws')
    (hws : ws ⊆ ws') : book.Grows book' := by
  intro name rows cols hsome
  obtain ⟨hrows, hcols⟩ := h.used.mp hsome
  have hfilled : everFilled ws name ⊆ everFilled ws' name := everFilled_mono hws
  rcases h'.extent?_cases name with ⟨-, hempty⟩ | ⟨rows', cols', hsome', hrows', hcols'⟩
  · obtain ⟨c, hc⟩ := Set.image_nonempty.mp hrows.nonempty
    have hnone := hfilled hc
    rw [hempty] at hnone
    cases hnone
  · exact ⟨rows', cols', hsome', hrows'.2 (Set.image_mono hfilled hrows.1),
      hcols'.2 (Set.image_mono hfilled hcols.1)⟩

/-! ### From the start -/

/-- The workbook shows what was written and nothing else. -/
structure Shows (book : Workbook) (ws : List Write) : Prop where
  /-- No two sheets have one name, in whatever case it is spelled. -/
  apart : book.sheets.Pairwise fun s t => ¬ Text.equalIgnoringCase s.name t.name
  /-- A cell reads as the last content written to it, or as blank. -/
  read : ∀ cell content, book.read cell = .ok content ↔
    book.HasCell cell ∧ content = (lastContent? ws cell).getD {}
  /-- The cells with formulas are listed by the stored names of their sheets. -/
  formulas : ∀ cell, cell ∈ book.formulaCells ↔
    book.Stores cell.sheet ∧ ∃ content, book.read cell = .ok content ∧ content.isFormula
  nodup : book.formulaCells.Nodup
  ordered : book.formulaCells.Pairwise book.Before
  unused : ∀ name, book.extent? name = none ↔ everFilled ws name = ∅
  used : ∀ name rows cols, book.extent? name = some (rows, cols) ↔
    IsGreatest (CellAddress.row '' everFilled ws name) rows ∧
      IsGreatest (CellAddress.col '' everFilled ws name) cols
  /-- What is stored lies in the used part of its sheet. -/
  covers : ∀ sheet ∈ book.sheets, ∀ row col, (sheet.get? row col).isSome →
    ∃ rows cols, book.extent? sheet.name = some (rows, cols) ∧ row ≤ rows ∧ col ≤ cols

theorem Holds.shows (h : book.Holds ws) : book.Shows ws where
  apart := h.apart
  read _ _ := h.read_eq_ok
  formulas _ := h.formulas
  nodup := h.nodup
  ordered := h.ordered
  unused := h.unused
  used _ _ _ := h.used
  covers _ hmem _ _ hstored := h.covers hmem hstored

theorem holds_empty : empty.Holds [] := ⟨.nil, nofun, nofun⟩

theorem holds_new : new.Holds [] :=
  ⟨List.pairwise_singleton _ _, List.forall_mem_singleton.mpr (Sheet.holds_new nofun), nofun⟩

theorem Holds.shows_after {start : Workbook} (h : start.Holds []) (calls more : List Call) :
    (start.after calls).Shows (start.writes calls) ∧
      (start.after calls).Grows (start.after (calls ++ more)) := by
  have hcalls : (start.after calls).Holds (start.writes calls) := h.after calls
  have hmore : (start.after (calls ++ more)).Holds (start.writes (calls ++ more)) :=
    h.after (calls ++ more)
  refine ⟨hcalls.shows, hcalls.grows hmore ?_⟩
  rw [writes_append]
  exact List.subset_append_left _ _

/-- After any calls, refused or not, a workbook that started empty or with one new sheet shows
what the calls wrote and nothing else, and no later calls make a used part smaller. -/
theorem after_shows_writes (calls more : List Call) :
    ((empty.after calls).Shows (empty.writes calls) ∧
        (empty.after calls).Grows (empty.after (calls ++ more))) ∧
      (new.after calls).Shows (new.writes calls) ∧
        (new.after calls).Grows (new.after (calls ++ more)) :=
  ⟨holds_empty.shows_after calls more, holds_new.shows_after calls more⟩

-- The second sheet is refused, and the cell that was cleared stays in the used part.
example :
    let calls : List Call := [.setValue "B2" (.bool true), .addSheet "SHEET1",
      .setValue "sheet1!B2" .blank, .setFormula "A1" "=B2"]
    (new.after calls).extent? "Sheet1" = some (2, 2) ∧
      (new.after calls).formulaCells = [⟨"Sheet1", 1, 1⟩] := by decide

end Workbook

end Spreadsheet
