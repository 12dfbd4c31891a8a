-- SUMMARY: `INDIRECT` of the text that `ADDRESS` writes of a cell gives the cell.
import Spreadsheet.Proofs.Indirect
import Spreadsheet.Proofs.Naming

/-!
# Writing an address and reading it back

`ADDRESS` writes a cell of the grid as text, in A1 style with marks or as absolute numbers, behind
the name of a sheet or without one. `INDIRECT` in the same style reads the text back as this cell.
A text without a sheet is read on the sheet of the calling cell.
-/

namespace Spreadsheet

open Text

/-- The corner of a cell with its marks. -/
def Formula.Corner.ofMarked {row col : Nat} (hrow : Grid.HasRow row) (hcol : Grid.HasCol col)
    (rowAbsolute colAbsolute : Bool) : Formula.Corner :=
  .cell colAbsolute ⟨Grid.columnLetters col, col, Grid.columnOfLetters_columnLetters hcol⟩
    rowAbsolute ⟨Nat.toDigits 10 row, row, Grid.readRow?_toDigits hrow⟩

namespace Function

variable {site : Site} {args : List Argument} {row col : Nat} {marks : Int} {inA1 : Bool}
  {sheet stored s : String}

/-! ## The text of an address -/

/-- The arguments ask for the text of a cell. The name of the sheet is empty if none is wanted. -/
structure AsksForText (args : List Argument) (row col : Nat) (marks : Int) (inA1 : Bool)
    (sheet : String) : Prop where
  row : wholeArg? args 0 = some (row : Int)
  col : wholeArg? args 1 = some (col : Int)
  marks : (wholeArg? args 2).getD 1 = marks
  inA1 : (args[3]?.bind Argument.bool?).getD true = inA1
  sheet : (args[4]?.bind Argument.text?).getD "" = sheet

theorem exists_addressMarks? (hleast : 1 ≤ marks) (hmost : marks ≤ 4) :
    ∃ marked, addressMarks? marks = some marked := by
  obtain rfl | rfl | rfl | rfl : marks = 1 ∨ marks = 2 ∨ marks = 3 ∨ marks = 4 := by omega
  all_goals exact ⟨_, rfl⟩

theorem address_eq_text (h : AsksForText args row col marks inA1 sheet) (hrow : Grid.HasRow row)
    (hcol : Grid.HasCol col) {rowAbsolute colAbsolute : Bool}
    (hmarks : addressMarks? marks = some (rowAbsolute, colAbsolute)) :
    address args = .text (addressText { row, col, rowAbsolute, colAbsolute } inA1 sheet) := by
  simp [address, h.row, h.col, h.marks, h.inA1, h.sheet, hrow, hcol, hmarks]

/-- What stands in front of an address. -/
def sheetChars (sheet : String) : List Char :=
  if sheet.isEmpty then [] else SheetName.beforeReference sheet

theorem toList_addressText (coord : Coord) (inA1 : Bool) (sheet : String) :
    (addressText coord inA1 sheet).toList = sheetChars sheet ++
      if inA1 then coord.textChars
      else countedText 'R' coord.rowAbsolute coord.row ++
        countedText 'C' coord.colAbsolute coord.col := by
  unfold addressText sheetChars
  cases sheet.isEmpty <;> simp

/-! ## A1 style -/

/-- The parts of the text in A1 style: a cell with its marks, behind a sheet or not. -/
theorem exists_parts_of_address (hrow : Grid.HasRow row) (hcol : Grid.HasCol col)
    (rowAbsolute colAbsolute : Bool) (hsheet : sheet ≠ "" → SheetName.Quotable sheet) :
    ∃ parts : Formula.Parts, parts.Readable ∧
      parts.chars = (addressText { row, col, rowAbsolute, colAbsolute } true sheet).toList ∧
      parts.sheet? = (if sheet = "" then none else some sheet) ∧
      ∀ name, (parts.denoted.on name) = .ofCell ⟨name, row, col⟩ := by
  have hcorner : (Formula.Corner.ofMarked hrow hcol rowAbsolute colAbsolute).chars =
      Coord.textChars { row, col, rowAbsolute, colAbsolute } := by
    simp [Formula.Corner.ofMarked, Formula.Corner.chars, Formula.Corner.markChars,
      Coord.textChars]
  by_cases hempty : sheet = ""
  · refine ⟨.single none (.ofMarked hrow hcol rowAbsolute colAbsolute) rfl,
      ⟨trivial, by rintro qualifier ⟨⟩, Formula.Parts.oneMark_single rfl⟩, ?_, ?_,
        fun name => rfl⟩
    · simp [toList_addressText, sheetChars, hempty, Formula.Parts.chars,
        Formula.Qualifier.charsOf, hcorner]
    · rw [if_pos hempty]
      rfl
  · have hquotable := hsheet hempty
    have hne : sheet.toList ≠ [] := fun h => hempty (String.toList_inj.mp h)
    refine ⟨.single (some (.ofName sheet hne)) (.ofMarked hrow hcol rowAbsolute colAbsolute) rfl,
      Formula.Parts.readable_of_quotable hquotable hne rfl trivial
        (Formula.Parts.oneMark_single rfl), ?_, ?_, fun name => rfl⟩
    · simp [toList_addressText, sheetChars, hempty, Formula.Parts.chars,
        Formula.Qualifier.charsOf, Formula.Qualifier.chars_ofName, hcorner]
    · rw [if_neg hempty]
      exact congrArg some Formula.Qualifier.sheet_ofName

theorem readArea_address (hrow : Grid.HasRow row) (hcol : Grid.HasCol col)
    (rowAbsolute colAbsolute : Bool) (hsheet : sheet ≠ "" → SheetName.Quotable sheet)
    {default : String} (hdefault : default ≠ "") :
    let text := (addressText { row, col, rowAbsolute, colAbsolute } true sheet).toList
    trimChars text = text ∧ text ≠ [] ∧ Reference.readArea text default =
      .ok (.ofCell ⟨if sheet = "" then default else sheet, row, col⟩) := by
  obtain ⟨parts, hread, hchars, hnamed, hdenoted⟩ :=
    exists_parts_of_address hrow hcol rowAbsolute colAbsolute hsheet
  dsimp only
  rw [← hchars]
  refine ⟨Formula.Parts.trimChars_chars parts, parts.chars_ne_nil, ?_⟩
  rw [Formula.Parts.readArea_chars hread hdefault, hdenoted, hnamed]
  split <;> rfl

/-! ## Absolute numbers -/

end Function

namespace Reference

variable {row col n base : Nat} {cs body : List Char} {cell : CellAddress} {named : Option String}

/-- A row or column of the grid fits a word. -/
theorem readAxis?_toDigits (hn : n ≤ Grid.maxRows) :
    readAxis? base (Nat.toDigits 10 n) = some (n : Int) := by
  have hword : word? n = some (n : Int) := by
    refine if_pos ⟨?_, ?_⟩
    · exact Int.le_trans (by decide) (Int.natCast_nonneg n)
    · exact Int.le_trans (Int.ofNat_le.mpr hn) (by decide)
  unfold readAxis?
  split
  · rename_i h
    exact absurd h Nat.toDigits_ne_nil
  · rename_i h
    have hbracket : ('[').isDigit := Coord.isDigit_of_mem_toDigits (h ▸ List.mem_cons_self)
    cases hbracket
  · rw [readNat?_toDigits]
    exact hword

/-- The text of a cell by its row and column numbers. -/
def countedChars (row col : Nat) : List Char :=
  'R' :: Nat.toDigits 10 row ++ 'C' :: Nat.toDigits 10 col

theorem plain_countedChars (row col : Nat) : Plain (countedChars row col) := by
  have hletter {c : Char} (hc : c.isAlphanum) : Plain [c] :=
    ⟨List.cons_ne_nil _ _, List.forall_mem_singleton.mpr hc⟩
  exact ((hletter rfl).append (.toDigits row)).append ((hletter rfl).append (.toDigits col))

theorem readRowCol?_countedChars (hrow : Grid.HasRow row) (hcol : Grid.HasCol col) :
    readRowCol? (countedChars row col) cell = some ((row : Int), (col : Int)) := by
  have hdigits : ∀ c ∈ Nat.toDigits 10 row, (!isColLetter c) = true := by
    intro c hc
    have hdigit := Coord.isDigit_of_mem_toDigits hc
    rw [Bool.not_eq_true', Bool.eq_false_iff]
    intro hletter
    obtain rfl | rfl := ((Bool.or_eq_true _ _).mp hletter).imp eq_of_beq eq_of_beq <;> cases hdigit
  have hspan : (Nat.toDigits 10 row ++ 'C' :: Nat.toDigits 10 col).dropWhile (!isColLetter ·) =
      'C' :: Nat.toDigits 10 col := by
    rw [List.dropWhile_append_of_pos hdigits, List.dropWhile_cons_of_neg (by decide)]
  have htake : (Nat.toDigits 10 row ++ 'C' :: Nat.toDigits 10 col).takeWhile (!isColLetter ·) =
      Nat.toDigits 10 row := by
    rw [List.takeWhile_append_of_pos hdigits, List.takeWhile_cons_of_neg (by decide),
      List.append_nil]
  have hrow' : row ≤ Grid.maxRows := Int.ofNat_le.mp hrow.2
  have hcol' : col ≤ Grid.maxRows := Nat.le_trans (Int.ofNat_le.mp hcol.2) (by decide)
  unfold readRowCol?
  rw [(plain_countedChars row col).trimChars]
  simp only [countedChars, List.cons_append, hspan, htake, readAxis?_toDigits hrow',
    readAxis?_toDigits hcol']
  rfl

/-- Behind whatever sheet, absolute numbers are read as the cell they count to. -/
theorem readCountedArea_countedChars (hrow : Grid.HasRow row) (hcol : Grid.HasCol col)
    (hsplit : SheetName.splitCornersChars cs = .ok (named, countedChars row col)) :
    readCountedArea cs cell = .ok (.ofCell ⟨named.getD cell.sheet, row, col⟩) := by
  have hcolon : splitFirst? ':' (countedChars row col) = none :=
    splitFirst?_eq_none_iff.mpr ((plain_countedChars row col).notMem (by decide))
  have hcell (sheet : String) : cellInGrid sheet row col = .ok ⟨sheet, row, col⟩ :=
    if_pos ⟨hrow, hcol⟩
  unfold readCountedArea
  rw [bind_eq_ok]
  refine ⟨_, mapError_eq_ok.mpr hsplit, ?_⟩
  simp only [hcolon, Option.getD_none, readRowCol?_countedChars hrow hcol, hcell]
  simp [bind, Except.bind, pure, Except.pure, Area.ofCorners, Area.ofCell]

end Reference

namespace Function

variable {site : Site} {args : List Argument} {row col : Nat} {marks : Int}
  {sheet stored s : String} {area : Area}

/-- The arguments ask for the area that the text `s` shows by counting rows and columns. -/
structure AsksCounted (args : List Argument) (s : String) : Prop where
  text : args.head?.bind Argument.text? = some s
  counted : (args[1]?.bind Argument.bool?).getD true = false

theorem indirect_of_readCountedArea (hargs : AsksCounted args s) (hne : trimChars s.toList ≠ [])
    (harea : Reference.readCountedArea (trimChars s.toList) site.cell = .ok area)
    (hsheet : site.source.sheetName? area.sheet = some sheet) :
    indirect site args = .ofArea { area with sheet } :=
  indirect_of_area hargs.text hargs.counted hne (if_neg Bool.false_ne_true) (.inl harea) hsheet

theorem readCountedArea_address (hrow : Grid.HasRow row) (hcol : Grid.HasCol col)
    (hsheet : sheet ≠ "" → SheetName.Quotable sheet) (cell : CellAddress) :
    let text := (addressText { row, col, rowAbsolute := true, colAbsolute := true } false
      sheet).toList
    trimChars text = text ∧ text ≠ [] ∧ Reference.readCountedArea text cell =
      .ok (.ofCell ⟨if sheet = "" then cell.sheet else sheet, row, col⟩) := by
  have hplain := Reference.plain_countedChars row col
  have htext : (addressText { row, col, rowAbsolute := true, colAbsolute := true } false
      sheet).toList = sheetChars sheet ++ Reference.countedChars row col := by
    simp [toList_addressText, countedText, Reference.countedChars]
  dsimp only
  rw [htext]
  refine ⟨?_, List.append_ne_nil_of_right_ne_nil _ hplain.ne_nil, ?_⟩
  · unfold sheetChars
    split
    · exact hplain.trimChars
    · exact hplain.trimChars_append (SheetName.not_isBlank_of_beforeReference sheet _)
  by_cases hempty : sheet = ""
  · have hsplit : SheetName.splitCornersChars (Reference.countedChars row col) =
        .ok (none, Reference.countedChars row col) := by
      have hcolon : ':' ∉ Reference.countedChars row col := hplain.notMem (by decide)
      unfold SheetName.splitCornersChars
      rw [hplain.trimChars]
      simp only [splitFirst?_eq_none_iff.mpr hcolon, SheetName.splitChars_plain hplain]
    rw [if_pos hempty, sheetChars, hempty]
    exact Reference.readCountedArea_countedChars hrow hcol hsplit
  · have hsplit := SheetName.splitCornersChars_single (hsheet hempty) hplain
    rw [if_neg hempty, sheetChars, if_neg (by simpa using hempty)]
    exact Reference.readCountedArea_countedChars hrow hcol hsplit

/-! ## Both ways -/

/-- **`INDIRECT` undoes `ADDRESS`.** In a built workbook and from a calling cell in the grid of a
sheet, let `ADDRESS` be asked for a cell of the grid on a sheet of the workbook, named in any case
of its letters, or with the sheet left out. In A1 style, with marks of any of the four sorts, and in
the style of absolute numbers, it writes a text that `INDIRECT` in the same style reads as exactly
this cell. With the sheet left out, the cell is on the sheet of the calling cell. -/
theorem indirect_address {site : Site} {cell : CellAddress} {sheet stored : String} {row col : Nat}
    (hbook : site.source.workbook.Built) (hcell : site.source.canonical site.cell = .ok cell)
    (hrow : Grid.HasRow row) (hcol : Grid.HasCol col)
    (hsheet : site.source.sheetName? (if sheet = "" then site.cell.sheet else sheet) =
      some stored) :
    (∀ marks : Int, 1 ≤ marks → marks ≤ 4 →
      ∀ args, AsksForText args row col marks true sheet →
        ∃ s, address args = .text s ∧ ∀ args', AsksInA1 args' s →
          indirect site args' = .ofArea (.ofCell ⟨stored, row, col⟩)) ∧
    (∀ args, AsksForText args row col 1 false sheet →
        ∃ s, address args = .text s ∧ ∀ args', AsksCounted args' s →
          indirect site args' = .ofArea (.ofCell ⟨stored, row, col⟩)) := by
  obtain ⟨⟨hne, -, -⟩, -⟩ := Source.canonical_eq_ok.mp hcell
  have hquotable : sheet ≠ "" → SheetName.Quotable sheet := by
    intro hnonempty
    rw [if_neg hnonempty] at hsheet
    exact Source.quotable_of_sheetName? hbook.wellNamed hsheet
  constructor
  · intro marks hleast hmost args hargs
    obtain ⟨⟨rowAbsolute, colAbsolute⟩, hmarks⟩ := exists_addressMarks? hleast hmost
    obtain ⟨htrim, htext, hread⟩ :=
      readArea_address hrow hcol rowAbsolute colAbsolute hquotable hne
    refine ⟨_, address_eq_text hargs hrow hcol hmarks, fun args' hargs' => ?_⟩
    rw [← htrim] at htext hread
    exact indirect_of_readArea hargs' htext hread hsheet
  · intro args hargs
    obtain ⟨htrim, htext, hread⟩ := readCountedArea_address hrow hcol hquotable site.cell
    refine ⟨_, address_eq_text hargs hrow hcol rfl, fun args' hargs' => ?_⟩
    rw [← htrim] at htext hread
    exact indirect_of_readCountedArea hargs' htext hread hsheet

/-- A cell of a sheet that is named like a reference, asked for in another case. -/
theorem indirect_address_quoted :
    let book : Workbook := { sheets := [{ name := "Sheet1" }, { name := "R1C1" }] }
    let site : Site := ⟨{ workbook := book }, ⟨"Sheet1", 5, 6⟩, 1⟩
    let args : List Argument :=
      [.value (.number 2), .value (.number 28), .value (.number 3), .value (.bool true),
        .value (.text "r1c1")]
    address args = .text "'r1c1'!$AB2" ∧
      indirect site [.value (.text "'r1c1'!$AB2")] = .ofArea (.ofCell ⟨"R1C1", 2, 28⟩) := by
  intro book site args
  have hbuilt : book.Built := by
    have hadd : Workbook.new.addSheet "R1C1" = .ok book := by rfl
    exact .addSheet .new hadd
  have hcell : site.source.canonical site.cell = .ok site.cell := by rfl
  have hsheet : site.source.sheetName? (if "r1c1" = "" then site.cell.sheet else "r1c1") =
      some "R1C1" := by decide
  have hargs : AsksForText args 2 28 3 true "r1c1" :=
    ⟨by decide +kernel, by decide +kernel, by decide +kernel, rfl, rfl⟩
  have htext : address args = .text "'r1c1'!$AB2" :=
    (address_eq_text hargs (by decide) (by decide) rfl).trans
      (congrArg Value.text (by decide +kernel))
  obtain ⟨hmarked, -⟩ :=
    indirect_address hbuilt hcell (by decide : Grid.HasRow (2 : Nat))
      (by decide : Grid.HasCol (28 : Nat)) hsheet
  obtain ⟨s, hs, hback⟩ := hmarked 3 (by decide) (by decide) args hargs
  obtain rfl : "'r1c1'!$AB2" = s := by
    rw [htext] at hs
    cases hs
    rfl
  exact ⟨htext, hback _ ⟨rfl, rfl⟩⟩

end Function

end Spreadsheet
