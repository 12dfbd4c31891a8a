-- SUMMARY: References that count rows and columns resolve to exactly the cell that they mean.
import Spreadsheet.Proofs.Offset
import Spreadsheet.Proofs.Words

/-!
# Counted references resolve exactly

A counted reference has a row part and a column part. Each is missing, a number, or a difference in
brackets, and it means a row or a column from the base cell over unbounded integers. The reader finds
exactly the cell that is meant, in whatever spelling, and refuses what lies outside the grid. With
two numbers the reader of cells in A1 style finds the same cell.
-/

namespace Spreadsheet

open Text

/-! ## Numbers as they are written -/

namespace Text

variable {n : Int} {c : Char}

/-- The digits of a number behind any number of zeros. -/
def zeroedDigits (zeros n : Nat) : List Char := List.replicate zeros '0' ++ Nat.toDigits 10 n

/-- What may stand in front of a number. -/
inductive Sign where
  | unsigned
  | plus
  | minus
  deriving DecidableEq, Repr

namespace Sign

def chars : Sign → List Char
  | .unsigned => []
  | .plus => ['+']
  | .minus => ['-']

def apply : Sign → Nat → Int
  | .unsigned, n | .plus, n => n
  | .minus, n => -n

end Sign

theorem isDigit_of_mem_zeroedDigits {zeros n : Nat} (hc : c ∈ zeroedDigits zeros n) :
    c.isDigit := by
  rcases List.mem_append.mp hc with hc | hc
  · rw [List.eq_of_mem_replicate hc]
    rfl
  · exact Coord.isDigit_of_mem_toDigits hc

theorem zeroedDigits_ne_nil (zeros n : Nat) : zeroedDigits zeros n ≠ [] :=
  List.append_ne_nil_of_right_ne_nil _ Nat.toDigits_ne_nil

/-- Zeros in front do not change a number. -/
theorem readNat?_zeroedDigits (zeros n : Nat) : readNat? (zeroedDigits zeros n) = some n := by
  have hzeros : Nat.ofDigitChars 10 (List.replicate zeros '0') 0 = 0 := by
    induction zeros with
    | zero => rfl
    | succ zeros ih =>
        rw [List.replicate_succ, Nat.ofDigitChars_cons]
        exact ih
  have hne : (zeroedDigits zeros n).isEmpty = false :=
    List.isEmpty_eq_false_iff.mpr (zeroedDigits_ne_nil zeros n)
  have hdigits : (zeroedDigits zeros n).all Char.isDigit = true :=
    List.all_eq_true.mpr fun c hc => isDigit_of_mem_zeroedDigits hc
  unfold readNat?
  rw [hne, hdigits]
  simp only [Bool.not_false, Bool.and_self, if_true, zeroedDigits, Nat.ofDigitChars_append, hzeros,
    Nat.ofDigitChars_toDigits (by decide : 1 < 10) (by decide : 10 ≤ 10)]

theorem readWord?_signed (sign : Sign) (zeros n : Nat) :
    readWord? (sign.chars ++ zeroedDigits zeros n) = word? (sign.apply n) := by
  have hread := readNat?_zeroedDigits zeros n
  cases sign with
  | plus =>
      change (readNat? (zeroedDigits zeros n)).bind _ = _
      rw [hread]
      rfl
  | minus =>
      change (readNat? (zeroedDigits zeros n)).bind _ = _
      rw [hread]
      rfl
  | unsigned =>
      have hsigns (d : Char) (hd : d.isDigit = false) : (zeroedDigits zeros n).head? ≠ some d := by
        intro hhead
        rw [isDigit_of_mem_zeroedDigits (List.mem_of_head? hhead)] at hd
        cases hd
      rw [Sign.chars, List.nil_append]
      unfold readWord?
      split
      · rename_i hcs
        exact absurd (congrArg List.head? hcs) (hsigns '-' rfl)
      · rename_i hcs
        exact absurd (congrArg List.head? hcs) (hsigns '+' rfl)
      · rw [hread]
        rfl

theorem clampWord_eq_self (h : IsWord n) : clampWord n = n := by
  unfold IsWord at h
  unfold clampWord
  omega

end Text

/-- There are as many rows as columns, and more. -/
theorem Grid.HasCol.hasRow {n : Int} (h : Grid.HasCol n) : Grid.HasRow n :=
  ⟨h.1, Int.le_trans h.2 (by decide)⟩

/-! ## The parts of a counted reference -/

namespace Reference

open Formula

variable {base : CellAddress} {c : Char}

/-- What is written behind `R` or `C`: nothing, a number, or a difference in brackets. -/
inductive AxisText where
  | same
  | absolute (zeros n : Nat)
  | difference (sign : Sign) (zeros n : Nat)

namespace AxisText

variable {text : AxisText} {start : Nat} {P : Char → Prop}

def chars : AxisText → List Char
  | .same => []
  | .absolute zeros n => zeroedDigits zeros n
  | .difference sign zeros n => '[' :: (sign.chars ++ zeroedDigits zeros n ++ [']'])

/-- The number that is written, or zero. -/
def number : AxisText → Int
  | .same => 0
  | .absolute _ n => n
  | .difference sign _ n => sign.apply n

/-- The row or the column that is meant. -/
def meant (start : Nat) : AxisText → Int
  | .same => start
  | .absolute _ n => n
  | .difference sign _ n => start + sign.apply n

/-- What leads from one row of the grid to another fits a word. -/
theorem isWord_number {target : Nat} (text : AxisText) (hstart : Grid.HasRow start)
    (htarget : Grid.HasRow target) (h : text.meant start = target) : IsWord text.number := by
  unfold Grid.HasRow Grid.maxRows at hstart htarget
  unfold IsWord minWord maxWord
  cases text with
  | same => decide
  | absolute zeros n =>
      change (n : Int) = target at h
      dsimp only [number]
      omega
  | difference sign zeros n =>
      change start + sign.apply n = target at h
      dsimp only [number]
      omega

theorem forall_mem_chars (hdigit : ∀ c, c.isDigit → P c) (hmark : P '[' ∧ P ']' ∧ P '+' ∧ P '-')
    (text : AxisText) : ∀ c ∈ text.chars, P c := by
  obtain ⟨hopen, hclose, hplus, hminus⟩ := hmark
  have hdigits (zeros n : Nat) : ∀ c ∈ zeroedDigits zeros n, P c :=
    fun c hc => hdigit c (isDigit_of_mem_zeroedDigits hc)
  cases text with
  | same => exact List.forall_mem_nil _
  | absolute zeros n => exact hdigits zeros n
  | difference sign zeros n =>
      have hsign : ∀ c ∈ sign.chars, P c := by
        cases sign with
        | unsigned => exact List.forall_mem_nil _
        | plus => exact List.forall_mem_singleton.mpr hplus
        | minus => exact List.forall_mem_singleton.mpr hminus
      exact List.forall_mem_cons.mpr ⟨hopen, List.forall_mem_append.mpr
        ⟨List.forall_mem_append.mpr ⟨hsign, hdigits zeros n⟩, List.forall_mem_singleton.mpr hclose⟩⟩

/-- What is meant is read, cut to a word, unless the number that is written is no word. -/
theorem readAxis?_chars (hstart : IsWord start) (text : AxisText) :
    readAxis? start text.chars =
      if IsWord text.number then some (clampWord (text.meant start)) else none := by
  cases text with
  | same =>
      rw [meant, clampWord_eq_self hstart]
      rfl
  | absolute zeros n =>
      change readAxis? start (zeroedDigits zeros n) =
        if IsWord n then some (clampWord n) else none
      unfold readAxis?
      split
      · rename_i hcs
        exact absurd hcs (zeroedDigits_ne_nil zeros n)
      · rename_i hcs
        have hbracket : ('[').isDigit := isDigit_of_mem_zeroedDigits (hcs ▸ List.mem_cons_self)
        cases hbracket
      · rw [readNat?_zeroedDigits, Option.bind_some]
        refine if_ctx_congr Iff.rfl (fun hword => ?_) fun _ => rfl
        rw [clampWord_eq_self hword]
  | difference sign zeros n =>
      have hlast : (sign.chars ++ zeroedDigits zeros n ++ [']']).getLast? = some ']' :=
        List.getLast?_concat
      change readAxis? start ('[' :: (sign.chars ++ zeroedDigits zeros n ++ [']'])) =
        if IsWord (sign.apply n) then some (clampWord (start + sign.apply n)) else none
      rw [readAxis?, if_pos hlast, List.dropLast_concat, readWord?_signed]
      by_cases hword : IsWord (sign.apply n)
      · rw [word?_eq_some.mpr ⟨hword, rfl⟩, if_pos hword]
        rfl
      · have hnone : word? (sign.apply n) = none := if_neg hword
        rw [hnone, if_neg hword]
        rfl

end AxisText

/-- A counted reference as it is written: its sheet if it names one, and its parts behind their
letters, each in either case. -/
structure CountedText where
  qualifier : Option Qualifier
  rowLetter : Char
  row : AxisText
  colLetter : Char
  col : AxisText
  isRowLetter : isRowLetter rowLetter
  isColLetter : isColLetter colLetter

namespace CountedText

variable {text : CountedText} {P : Char → Prop}

/-- The parts without the sheet. -/
def body (text : CountedText) : List Char :=
  text.rowLetter :: (text.row.chars ++ text.colLetter :: text.col.chars)

def chars (text : CountedText) : List Char := Qualifier.charsOf text.qualifier ++ text.body

def sheet? (text : CountedText) : Option String := text.qualifier.map Qualifier.sheet

/-- The numbers that are written fit a word. -/
def HasWords (text : CountedText) : Prop := IsWord text.row.number ∧ IsWord text.col.number

theorem forall_mem_body (hdigit : ∀ c, c.isDigit → P c)
    (hmark : P '[' ∧ P ']' ∧ P '+' ∧ P '-') (hletter : P 'R' ∧ P 'r' ∧ P 'C' ∧ P 'c')
    (text : CountedText) : ∀ c ∈ text.body, P c := by
  obtain ⟨hR, hr, hC, hc⟩ := hletter
  have hrow : P text.rowLetter := by
    rcases (Bool.or_eq_true _ _).mp text.isRowLetter with h | h
    · exact eq_of_beq h ▸ hR
    · exact eq_of_beq h ▸ hr
  have hcol : P text.colLetter := by
    rcases (Bool.or_eq_true _ _).mp text.isColLetter with h | h
    · exact eq_of_beq h ▸ hC
    · exact eq_of_beq h ▸ hc
  exact List.forall_mem_cons.mpr ⟨hrow, List.forall_mem_append.mpr
    ⟨AxisText.forall_mem_chars hdigit hmark _, List.forall_mem_cons.mpr
      ⟨hcol, AxisText.forall_mem_chars hdigit hmark _⟩⟩⟩

theorem isBlank_of_mem_body : ∀ c ∈ text.body, isBlank c = false :=
  forall_mem_body (fun c hc => isBlank_of_isWordChar (isWordChar_of_isAlphanum
    (by simp [Char.isAlphanum, hc]))) (by decide) (by decide) text

theorem trimChars_body : trimChars text.body = text.body :=
  trimChars_eq_self (fun c hc => isBlank_of_mem_body c (List.mem_of_head? hc))
    fun c hc => isBlank_of_mem_body c (List.mem_of_getLast? hc)

theorem splitChars_chars (text : CountedText) :
    SheetName.splitChars text.chars = .ok (text.sheet?, text.body) := by
  have hnotMem {mark : Char} (hdigit : mark.isDigit = false)
      (hmarks : '[' ≠ mark ∧ ']' ≠ mark ∧ '+' ≠ mark ∧ '-' ≠ mark)
      (hletters : 'R' ≠ mark ∧ 'r' ≠ mark ∧ 'C' ≠ mark ∧ 'c' ≠ mark) : mark ∉ text.body := by
    intro hmem
    refine forall_mem_body (P := (· ≠ mark)) ?_ hmarks hletters text mark hmem rfl
    rintro c hc rfl
    rw [hdigit] at hc
    cases hc
  exact Qualifier.splitChars_charsOf text.qualifier (List.cons_ne_nil _ _) isBlank_of_mem_body
    (hnotMem (by decide) (by decide) (by decide)) (hnotMem (by decide) (by decide) (by decide))

/-- The row part ends at the letter of the column part. -/
theorem readRowCol?_body (text : CountedText) (base : CellAddress) :
    readRowCol? text.body base = do
      let row ← readAxis? base.row text.row.chars
      let col ← readAxis? base.col text.col.chars
      return (row, col) := by
  have hrow : ∀ c ∈ text.row.chars, (!Reference.isColLetter c) = true := by
    refine AxisText.forall_mem_chars (fun c hc => ?_) (by decide) text.row
    rw [Bool.not_eq_true', Bool.eq_false_iff]
    intro hletter
    rw [not_isDigit_of_isColLetter hletter] at hc
    cases hc
  have hcol : ∀ c ∈ (text.colLetter :: text.col.chars).head?,
      (!Reference.isColLetter c) = false := by
    rintro c ⟨⟩
    simp [text.isColLetter]
  unfold readRowCol?
  rw [trimChars_body]
  simp only [body, text.isRowLetter, if_true, takeWhile_append hrow hcol,
    dropWhile_append hrow hcol]

/-- With words for numbers, what is meant is looked for in the grid. -/
theorem readCountedCell_chars (hrow : IsWord base.row) (hcol : IsWord base.col)
    (hwords : text.HasWords) :
    readCountedCell text.chars base = cellInGrid (text.sheet?.getD base.sheet)
      (clampWord (text.row.meant base.row)) (clampWord (text.col.meant base.col)) := by
  have hread : readRowCol? text.body base =
      some (clampWord (text.row.meant base.row), clampWord (text.col.meant base.col)) := by
    rw [readRowCol?_body, AxisText.readAxis?_chars hrow, AxisText.readAxis?_chars hcol,
      if_pos hwords.1, if_pos hwords.2]
    rfl
  unfold readCountedCell
  rw [splitChars_chars]
  simp only [Except.mapError, bind, Except.bind, hread]

/-- A number that is no word is not read. -/
theorem readCountedCell_unreadable (hrow : IsWord base.row) (hcol : IsWord base.col)
    (hwords : ¬ text.HasWords) :
    readCountedCell text.chars base =
      .error (.reference (.unreadable (String.ofList (trimChars text.chars)))) := by
  have hread : readRowCol? text.body base = none := by
    rw [readRowCol?_body]
    by_cases hword : IsWord text.row.number
    · rw [AxisText.readAxis?_chars hrow, AxisText.readAxis?_chars hcol, if_pos hword,
        if_neg fun hword' => hwords ⟨hword, hword'⟩]
      rfl
    · rw [AxisText.readAxis?_chars hrow, if_neg hword]
      rfl
  unfold readCountedCell
  rw [splitChars_chars]
  simp only [Except.mapError, bind, Except.bind, hread]
  rfl

/-! ## The grid -/

/-- Cutting to words does not move a cell into the grid or within it. -/
theorem cellInGrid_clampWord {sheet : String} {row col : Int} :
    cellInGrid sheet (clampWord row) (clampWord col) =
      if Grid.HasRow row ∧ Grid.HasCol col then .ok ⟨sheet, row.toNat, col.toNat⟩
      else .error (.outOfBounds (clampWord row) (clampWord col)) := by
  by_cases hgrid : Grid.HasRow row ∧ Grid.HasCol col
  · rw [clampWord_eq_self hgrid.1.isWord, clampWord_eq_self hgrid.2.isWord, if_pos hgrid]
    exact if_pos hgrid
  · have hclamped : ¬ (Grid.HasRow (clampWord row) ∧ Grid.HasCol (clampWord col)) := by
      unfold Grid.HasRow Grid.HasCol Grid.maxRows Grid.maxCols at *
      unfold clampWord minWord maxWord
      omega
    rw [if_neg hgrid]
    exact if_neg hclamped

/-! ## Absolute numbers in A1 style -/

/-- Both parts are numbers. -/
structure Absolute (text : CountedText) (row col : Nat) : Prop where
  row : ∃ zeros, text.row = .absolute zeros row
  col : ∃ zeros, text.col = .absolute zeros col

variable {row col : Nat}

/-- A letter in front of a digit is no cell in A1 style unless a number of a row begins there. -/
theorem isText_letter {letter : Char} {rest : List Char} (halpha : letter.isAlpha)
    (htrim : trimChars (letter :: rest) = letter :: rest) (hdigit : ∀ d ∈ rest.head?, d.isDigit)
    (hread : Grid.readRow? rest = none) : Coord.isText (letter :: rest) = false := by
  have hmark : letter ≠ '$' := by
    rintro rfl
    cases halpha
  have hfirst : Coord.takeMark (letter :: rest) = (false, letter :: rest) :=
    @takeMark_append _ false fun _ => head?_ne_mark fun d hd => by
      cases hd
      exact hmark
  have hsecond : Coord.takeMark rest = (false, rest) :=
    @takeMark_append _ false fun _ => head?_ne_mark fun d hd => ne_mark_of_isDigit (hdigit d hd)
  have hletters : ∀ d ∈ [letter], d.isAlpha := List.forall_mem_singleton.mpr halpha
  have hstop : ∀ d ∈ rest.head?, d.isAlpha = false :=
    fun d hd => not_isAlpha_of_isDigit (hdigit d hd)
  unfold Coord.isText Coord.ofChars
  simp only [htrim, hfirst]
  rw [← List.singleton_append]
  simp only [takeWhile_append hletters hstop, dropWhile_append hletters hstop, hsecond, hread]
  cases Grid.columnOfLetters [letter] <;> rfl

/-- Two numbers are no cell in A1 style: the row would have a letter in it. -/
theorem Absolute.isText_body (h : text.Absolute row col) : Coord.isText text.body = false := by
  obtain ⟨⟨zeros, hrow⟩, zeros', hcol⟩ := h
  have htrim := text.trimChars_body
  rw [body, hrow, hcol] at htrim ⊢
  refine isText_letter ?_ htrim ?_ ?_
  · obtain h | h := (Bool.or_eq_true _ _).mp text.isRowLetter
    · rw [eq_of_beq h]
      decide
    · rw [eq_of_beq h]
      decide
  · exact of_mem_head?_append (zeroedDigits_ne_nil zeros row) fun d hd =>
      isDigit_of_mem_zeroedDigits hd
  · have hall : (zeroedDigits zeros row ++ text.colLetter :: zeroedDigits zeros' col).all
        Char.isDigit = false :=
      List.all_eq_false.mpr ⟨text.colLetter, by simp,
        by simp [not_isDigit_of_isColLetter text.isColLetter]⟩
    rw [AxisText.chars, AxisText.chars, Grid.readRow?, readNat?, hall, Bool.and_false]
    rfl

/-- Two numbers count to the cell that they are. -/
theorem Absolute.countsTo_body (h : text.Absolute row col) (hrow : Grid.HasRow row)
    (hcol : Grid.HasCol col) : CountsTo text.body row col := by
  obtain ⟨⟨zeros, hzeros⟩, zeros', hzeros'⟩ := h
  rw [body, hzeros, hzeros']
  refine .intro text.isRowLetter ?_ text.isColLetter ?_
  · rw [AxisText.chars, Grid.readRow?, readNat?_zeroedDigits, Option.filter_some,
      if_pos (decide_eq_true hrow)]
  · rw [AxisText.chars, Grid.readCol?, readNat?_zeroedDigits, Option.filter_some,
      if_pos (decide_eq_true hcol)]

/-- Two numbers are read as a cell is in A1 style. -/
theorem Absolute.readCoord?_body (h : text.Absolute row col) (hrow : Grid.HasRow row)
    (hcol : Grid.HasCol col) : readCoord? text.body = some ⟨row, col, true, true⟩ := by
  have hcell := h.isText_body
  unfold readCoord?
  rw [trimChars_body, (h.countsTo_body hrow hcol).readAbsoluteR1C1?]
  cases hcoord : Coord.ofChars text.body with
  | error fault => rfl
  | ok coord =>
      rw [Coord.isText, hcoord] at hcell
      cases hcell

end CountedText

/-- What is read of a cell does not depend on how its coordinates are written. -/
theorem readCell_congr {cs cs' body body' : List Char} {named : Option String} {coord coord' : Coord}
    (hsplit : SheetName.splitChars cs = .ok (named, body))
    (hsplit' : SheetName.splitChars cs' = .ok (named, body'))
    (hread : readCoord? body = some coord) (hread' : readCoord? body' = some coord')
    (hrow : coord.row = coord'.row) (hcol : coord.col = coord'.col) (default : String) :
    readCell cs default = readCell cs' default := by
  have hcell : coord.on (named.getD default) = coord'.on (named.getD default) := by
    rw [Coord.on, Coord.on, hrow, hcol]
  unfold readCell
  rw [hsplit, hsplit']
  simp only [Except.mapError, bind, Except.bind, hread, hread', hcell]

theorem readCell_eq_ok {cs body : List Char} {named : Option String} {coord : Coord}
    {default : String} (hsplit : SheetName.splitChars cs = .ok (named, body))
    (hread : readCoord? body = some coord) (hrow : Grid.HasRow coord.row)
    (hcol : Grid.HasCol coord.col) (hsheet : named.getD default ≠ "") :
    readCell cs default = .ok (coord.on (named.getD default)) := by
  unfold readCell
  rw [bind_eq_ok]
  refine ⟨_, mapError_eq_ok.mpr hsplit, ?_⟩
  simp only [hread]
  exact bind_eq_ok.mpr ⟨⟨⟩, CellAddress.checkBounds_eq_ok.mpr ⟨hsheet, hrow, hcol⟩, rfl⟩

/-- **Counted references resolve exactly.** Take a base cell in the grid and a counted reference in
any spelling: behind a sheet or not, its letters in either case, each part missing, a number with
zeros in front, or a difference with a sign or none. If what it means from the base is a cell of the
grid, it is read as this cell, on the named sheet or the base's. If its numbers are words but what it
means lies outside the grid, it is out of bounds. A number that is no word is not read. With two
numbers, the reader of cells in A1 style gives the cell that it gives for the same cell in A1
style. -/
theorem counted_text_resolves (text : CountedText) (base : CellAddress)
    (hrow : Grid.HasRow base.row) (hcol : Grid.HasCol base.col) :
    (∀ target : CellAddress, Grid.HasRow target.row → Grid.HasCol target.col →
      text.row.meant base.row = target.row → text.col.meant base.col = target.col →
      target.sheet = text.sheet?.getD base.sheet →
      readCountedCell text.chars base = .ok target) ∧
    (text.HasWords →
      ¬ (Grid.HasRow (text.row.meant base.row) ∧ Grid.HasCol (text.col.meant base.col)) →
      readCountedCell text.chars base = .error (.outOfBounds
        (clampWord (text.row.meant base.row)) (clampWord (text.col.meant base.col)))) ∧
    (¬ text.HasWords → readCountedCell text.chars base =
      .error (.reference (.unreadable (String.ofList (trimChars text.chars))))) ∧
    ∀ row col : Nat, text.Absolute row col → Grid.HasRow row → Grid.HasCol col →
      ∀ corner : Corner, corner.side = .cell → corner.first.row = row → corner.first.col = col →
        ∀ default : String,
          readCell text.chars default =
            readCell (Qualifier.charsOf text.qualifier ++ corner.chars) default ∧
          (text.sheet?.getD default ≠ "" →
            readCell text.chars default = .ok ⟨text.sheet?.getD default, row, col⟩) := by
  have hbase : IsWord base.row ∧ IsWord base.col := ⟨hrow.isWord, hcol.isWord⟩
  refine ⟨fun target htop hleft hdown hacross hsheet => ?_, fun hwords hbeyond => ?_,
    CountedText.readCountedCell_unreadable hbase.1 hbase.2,
    fun row col habsolute htop hleft corner hside hdown hacross default => ⟨?_, ?_⟩⟩
  · have hwords : text.HasWords :=
      ⟨text.row.isWord_number hrow htop hdown, text.col.isWord_number hcol.hasRow hleft.hasRow hacross⟩
    rw [CountedText.readCountedCell_chars hbase.1 hbase.2 hwords, CountedText.cellInGrid_clampWord,
      hdown, hacross, if_pos ⟨htop, hleft⟩, ← hsheet]
    rfl
  · rw [CountedText.readCountedCell_chars hbase.1 hbase.2 hwords, CountedText.cellInGrid_clampWord,
      if_neg hbeyond]
  · refine readCell_congr text.splitChars_chars (Qualifier.splitChars_corner text.qualifier corner)
      (habsolute.readCoord?_body htop hleft) ?_ hdown.symm hacross.symm default
    rw [readCoord?, Corner.ofChars_chars hside]
  · intro hsheet
    exact readCell_eq_ok text.splitChars_chars (habsolute.readCoord?_body htop hleft) htop hleft
      hsheet

/-- Two rows up on a sheet with an apostrophe in its name, as far down as a word goes, and a cell in
both styles. -/
theorem counted_text_resolves_quoted :
    let base : CellAddress := ⟨"Sheet1", 3, 5⟩
    readCountedCell "'It''s'!r[-0002]C016384".toList base = .ok ⟨"It's", 1, 16384⟩ ∧
      readCountedCell "R[9223372036854775807]C".toList base = .error (.outOfBounds maxWord 5) ∧
      readCell "R01c2".toList "Sheet1" = readCell "$B1".toList "Sheet1" := by
  intro base
  let up : CountedText := ⟨some (.quoted "It's".toList (by decide)), 'r', .difference .minus 3 2,
    'C', .absolute 1 16384, rfl, rfl⟩
  let down : CountedText := ⟨none, 'R', .difference .unsigned 0 9223372036854775807, 'C', .same,
    rfl, rfl⟩
  let counted : CountedText := ⟨none, 'R', .absolute 1 1, 'c', .absolute 0 2, rfl, rfl⟩
  let marked : Corner := .cell true .upperB false .one
  have hup : up.chars = "'It''s'!r[-0002]C016384".toList := by decide +kernel
  have hdown : down.chars = "R[9223372036854775807]C".toList := by decide +kernel
  have hcounted : counted.chars = "R01c2".toList := by decide +kernel
  have hresolves (text : CountedText) :=
    counted_text_resolves text base (by decide) (by decide)
  refine ⟨?_, ?_, ?_⟩
  · rw [← hup]
    exact (hresolves up).1 ⟨"It's", 1, 16384⟩ (by decide) (by decide) (by decide) (by decide)
      (by decide)
  · rw [← hdown]
    have hrow : clampWord (down.row.meant base.row) = maxWord := by decide +kernel
    have hcol : clampWord (down.col.meant base.col) = 5 := by decide
    rw [(hresolves down).2.1 ⟨by decide, by decide⟩ (by decide), hrow, hcol]
  · rw [← hcounted]
    exact ((hresolves counted).2.2.2 1 2 ⟨⟨1, rfl⟩, 0, rfl⟩ (by decide) (by decide) marked rfl rfl
      rfl "Sheet1").1

end Reference

end Spreadsheet
