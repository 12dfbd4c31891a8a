-- SUMMARY: The parts that a reference is written with, and that the scanner finds them.
import Spreadsheet.Proofs.ReferenceText
import Spreadsheet.Proofs.Tokens

/-!
# The parts of a reference

A reference is written with one or two corners. A corner is a cell, a column or a row, with its
marks, and the name of a sheet may stand in front of it, as a word or between apostrophes. Parts
carry what makes them well formed, and they say which cells they are about without being read. The
scanner finds a reference exactly where text starts with parts.
-/

namespace Spreadsheet.Formula

open Text

variable {cs rest : List Char} {n col row : Nat}

/-! ## Columns and rows -/

/-- The letters of a column of the grid, in either case. -/
structure ColumnLetters where
  chars : List Char
  col : Nat
  reads : Grid.columnOfLetters chars = .ok col

/-- The digits of a row of the grid, leading zeros included. -/
structure RowDigits where
  chars : List Char
  row : Nat
  reads : Grid.readRow? chars = some row

namespace ColumnLetters

theorem ne_nil (letters : ColumnLetters) : letters.chars ≠ [] := by
  intro hnil
  have hreads := letters.reads
  rw [hnil] at hreads
  cases hreads

theorem isAlpha (letters : ColumnLetters) : ∀ c ∈ letters.chars, c.isAlpha := by
  have hfrom (cs : List Char) (n col : Nat) (h : Grid.columnFrom n cs = .ok col) :
      ∀ c ∈ cs, c.isAlpha := by
    induction cs generalizing n with
    | nil => exact List.forall_mem_nil _
    | cons c cs ih =>
        rw [Grid.columnFrom] at h
        split at h
        · rename_i hc
          exact List.forall_mem_cons.mpr ⟨hc, ih _ h⟩
        · cases h
  have hreads := letters.reads
  unfold Grid.columnOfLetters at hreads
  simp only [unless_eq_ok, bind_eq_ok] at hreads
  obtain ⟨-, -, col, hcol, -⟩ := hreads
  exact hfrom _ _ _ hcol

def upperA : ColumnLetters := ⟨['A'], 1, rfl⟩

def lowerA : ColumnLetters := ⟨['a'], 1, rfl⟩

def upperB : ColumnLetters := ⟨['B'], 2, rfl⟩

def upperC : ColumnLetters := ⟨['C'], 3, rfl⟩

end ColumnLetters

namespace RowDigits

theorem readNat (digits : RowDigits) : readNat? digits.chars = some digits.row := by
  have hreads := digits.reads
  rw [Grid.readRow?, Option.filter_eq_some_iff] at hreads
  exact hreads.1

theorem ne_nil (digits : RowDigits) : digits.chars ≠ [] := by
  intro hnil
  have hread := digits.readNat
  rw [hnil] at hread
  cases hread

theorem isDigit (digits : RowDigits) : ∀ c ∈ digits.chars, c.isDigit := by
  have hread := digits.readNat
  unfold readNat? at hread
  split at hread
  · rename_i h
    exact List.all_eq_true.mp ((Bool.and_eq_true _ _).mp h).2
  · cases hread

def one : RowDigits := ⟨['1'], 1, rfl⟩

def two : RowDigits := ⟨['2'], 2, rfl⟩

def three : RowDigits := ⟨['3'], 3, rfl⟩

def zeroOne : RowDigits := ⟨['0', '1'], 1, rfl⟩

end RowDigits

/-! ## Corners -/

/-- One corner of a reference as it is written. The letters of a column and the digits of a row may
each stand behind a mark, those of whole rows behind two. -/
inductive Corner where
  | cell (colMark : Bool) (letters : ColumnLetters) (rowMark : Bool) (digits : RowDigits)
  | column (mark : Bool) (letters : ColumnLetters)
  | row (marks : Fin 3) (digits : RowDigits)

namespace Corner

theorem marks_cases (marks : Fin 3) : marks = 0 ∨ marks = 1 ∨ marks = 2 := by
  revert marks
  decide

/-- The corner of a cell, without marks. -/
def ofCell (hrow : Grid.HasRow row) (hcol : Grid.HasCol col) : Corner :=
  .cell false ⟨Grid.columnLetters col, col, Grid.columnOfLetters_columnLetters hcol⟩
    false ⟨Nat.toDigits 10 row, row, Grid.readRow?_toDigits hrow⟩

def ofCol (hcol : Grid.HasCol col) : Corner :=
  .column false ⟨Grid.columnLetters col, col, Grid.columnOfLetters_columnLetters hcol⟩

def ofRow (hrow : Grid.HasRow row) : Corner :=
  .row 0 ⟨Nat.toDigits 10 row, row, Grid.readRow?_toDigits hrow⟩

def markChars (mark : Bool) : List Char := if mark then ['$'] else []

def chars : Corner → List Char
  | .cell colMark letters rowMark digits =>
    markChars colMark ++ letters.chars ++ (markChars rowMark ++ digits.chars)
  | .column mark letters => markChars mark ++ letters.chars
  | .row marks digits => List.replicate marks '$' ++ digits.chars

def side : Corner → Token.Side
  | .cell .. => .cell
  | .column .. => .column
  | .row .. => .row

/-- Where what the corner is about begins. -/
def first : Corner → Coord
  | .cell colMark letters rowMark digits =>
    { row := digits.row, col := letters.col, rowAbsolute := rowMark, colAbsolute := colMark }
  | .column mark letters => { row := 1, col := letters.col, colAbsolute := mark }
  | .row marks digits => { row := digits.row, col := 1, rowAbsolute := marks != 0 }

/-- Where what the corner is about ends. -/
def last : Corner → Coord
  | .cell colMark letters rowMark digits =>
    { row := digits.row, col := letters.col, rowAbsolute := rowMark, colAbsolute := colMark }
  | .column mark letters => { row := Grid.maxRows, col := letters.col, colAbsolute := mark }
  | .row marks digits => { row := digits.row, col := Grid.maxCols, rowAbsolute := marks != 0 }

/-- Text behind the corner that does not go on it. -/
def EndsBefore (corner : Corner) (rest : List Char) : Prop :=
  ∀ c ∈ rest.head?, c.isDigit = false ∧ (corner.side = .column → c.isAlpha = false ∧ c ≠ '$')

end Corner

/-! ## Scanning a corner -/

open Corner (markChars)

/-- The marks, letters and digits at the front of some text, each as long as it can be. -/
structure Spans (mark₁ : Bool) (letters : List Char) (mark₂ : Bool) (digits rest : List Char) :
    Prop where
  isAlpha : ∀ c ∈ letters, c.isAlpha
  isDigit : ∀ c ∈ digits, c.isDigit
  unmarked₁ : mark₁ = false → (letters ++ (markChars mark₂ ++ (digits ++ rest))).head? ≠ some '$'
  lettersEnd : ∀ c ∈ (markChars mark₂ ++ (digits ++ rest)).head?, c.isAlpha = false
  unmarked₂ : mark₂ = false → (digits ++ rest).head? ≠ some '$'
  digitsEnd : ∀ c ∈ rest.head?, c.isDigit = false

variable {mark mark₁ mark₂ : Bool} {letters digits : List Char}

theorem markLength_append (h : mark = false → rest.head? ≠ some '$') :
    Token.markLength (markChars mark ++ rest) = (markChars mark).length := by
  cases mark with
  | true => rfl
  | false =>
      unfold Token.markLength markChars
      split
      · rename_i cs hcs
        rw [if_neg Bool.false_ne_true, List.nil_append] at hcs
        exact absurd (congrArg List.head? hcs) (h rfl)
      · rfl

theorem exists_mark (cs : List Char) :
    ∃ mark rest, cs = markChars mark ++ rest ∧ (mark = false → rest.head? ≠ some '$') := by
  by_cases h : cs.head? = some '$'
  · obtain ⟨rest, rfl⟩ := List.head?_eq_some_iff.mp h
    exact ⟨true, rest, rfl, nofun⟩
  · exact ⟨false, cs, rfl, fun _ => h⟩

/-- What is taken ends where a character is not of the kind. -/
theorem takeWhile_append {p : Char → Bool} (hcs : ∀ c ∈ cs, p c)
    (hrest : ∀ c ∈ rest.head?, p c = false) : (cs ++ rest).takeWhile p = cs := by
  rw [List.takeWhile_append_of_pos hcs]
  cases rest with
  | nil => simp
  | cons c rest => rw [List.takeWhile_cons_of_neg (by simp [hrest c rfl]), List.append_nil]

theorem exists_span (p : Char → Bool) (cs : List Char) :
    ∃ front rest, cs = front ++ rest ∧ (∀ c ∈ front, p c) ∧ ∀ c ∈ rest.head?, p c = false := by
  refine ⟨cs.takeWhile p, cs.dropWhile p, List.takeWhile_append_dropWhile.symm,
    List.all_eq_true.mp List.all_takeWhile, fun c hc => ?_⟩
  have hnot := List.head?_dropWhile_not p cs
  rw [Option.mem_def.mp hc] at hnot
  simpa using hnot

/-- Any text starts with marks, letters and digits, possibly none. -/
theorem exists_spans (cs : List Char) : ∃ mark₁ letters mark₂ digits rest,
    cs = markChars mark₁ ++ (letters ++ (markChars mark₂ ++ (digits ++ rest))) ∧
      Spans mark₁ letters mark₂ digits rest := by
  obtain ⟨mark₁, cs₁, rfl, hmark₁⟩ := exists_mark cs
  obtain ⟨letters, cs₂, rfl, hletters, hend⟩ := exists_span Char.isAlpha cs₁
  obtain ⟨mark₂, cs₃, rfl, hmark₂⟩ := exists_mark cs₂
  obtain ⟨digits, rest, rfl, hdigits, hrest⟩ := exists_span Char.isDigit cs₃
  exact ⟨mark₁, letters, mark₂, digits, rest, rfl, hletters, hdigits, hmark₁, hend, hmark₂, hrest⟩

theorem side?_of_spans (h : Spans mark₁ letters mark₂ digits rest) :
    Token.side? (markChars mark₁ ++ (letters ++ (markChars mark₂ ++ (digits ++ rest)))) =
      let before := (markChars mark₁).length + letters.length
      let length := before + (markChars mark₂).length + digits.length
      let inGrid := (Grid.readRow? digits).isSome
      if letters.isEmpty then if inGrid then some (length, .row) else none
      else if !(Grid.columnOfLetters letters).isOk then none
      else if digits.isEmpty then
        if (markChars mark₂).length = 0 then
          some ((markChars mark₁).length + letters.length, .column)
        else none
      else if inGrid then some (length, .cell)
      else none := by
  have hdrop₂ : (markChars mark₁ ++ (letters ++ (markChars mark₂ ++ (digits ++ rest)))).drop
      ((markChars mark₁).length + letters.length) = markChars mark₂ ++ (digits ++ rest) := by
    rw [← List.append_assoc, ← List.length_append, List.drop_left]
  have hdrop₃ : (markChars mark₁ ++ (letters ++ (markChars mark₂ ++ (digits ++ rest)))).drop
      ((markChars mark₁).length + letters.length + (markChars mark₂).length) =
        digits ++ rest := by
    rw [← List.drop_drop, hdrop₂, List.drop_left]
  unfold Token.side?
  simp only [markLength_append h.unmarked₁, List.drop_left, takeWhile_append h.isAlpha h.lettersEnd,
    hdrop₂, hdrop₃, markLength_append h.unmarked₂, takeWhile_append h.isDigit h.digitsEnd]

theorem of_mem_head?_append {P : Char → Prop} (hne : cs ≠ []) (hcs : ∀ c ∈ cs, P c) :
    ∀ c ∈ (cs ++ rest).head?, P c := by
  intro c hc
  rw [List.head?_append_of_ne_nil _ hne] at hc
  exact hcs c (List.mem_of_head? hc)

theorem ne_mark_of_isAlpha {c : Char} (hc : c.isAlpha) : c ≠ '$' := by
  rintro rfl
  exact absurd hc (by decide)

theorem ne_mark_of_isDigit {c : Char} (hc : c.isDigit) : c ≠ '$' := by
  rintro rfl
  exact absurd hc (by decide)

theorem head?_ne_mark (h : ∀ c ∈ cs.head?, c ≠ '$') : cs.head? ≠ some '$' :=
  fun hhead => h '$' hhead rfl

namespace Corner

/-- What is scanned at the front of text is a corner. -/
theorem side?_append (corner : Corner) (hrest : corner.EndsBefore rest) :
    Token.side? (corner.chars ++ rest) = some (corner.chars.length, corner.side) := by
  have hdigitsEnd : ∀ c ∈ rest.head?, c.isDigit = false := fun c hc => (hrest c hc).1
  have hdigits (digits : RowDigits) : ∀ c ∈ (digits.chars ++ rest).head?, c.isDigit :=
    of_mem_head?_append digits.ne_nil digits.isDigit
  have hmarked (mark : Bool) (digits : RowDigits) :
      ∀ c ∈ (markChars mark ++ (digits.chars ++ rest)).head?, c.isAlpha = false := by
    cases mark with
    | true =>
        rintro c ⟨⟩
        decide
    | false => exact fun c hc => not_isAlpha_of_isDigit (hdigits digits c hc)
  -- each kind of corner gives the parts that are scanned, some of them empty
  cases corner with
  | cell colMark letters rowMark digits =>
      have hspans : Spans colMark letters.chars rowMark digits.chars rest := {
        isAlpha := letters.isAlpha
        isDigit := digits.isDigit
        unmarked₁ := fun _ => head?_ne_mark (of_mem_head?_append letters.ne_nil
          fun c hc => ne_mark_of_isAlpha (letters.isAlpha c hc))
        lettersEnd := hmarked rowMark digits
        unmarked₂ := fun _ => head?_ne_mark fun c hc => ne_mark_of_isDigit (hdigits digits c hc)
        digitsEnd := hdigitsEnd }
      have hscan := side?_of_spans hspans
      simp only [letters.reads, digits.reads, List.isEmpty_eq_false_iff.mpr letters.ne_nil,
        List.isEmpty_eq_false_iff.mpr digits.ne_nil] at hscan
      simpa [chars, side, Except.isOk, Except.toBool, Nat.add_assoc] using hscan
  | column mark letters =>
      have hspans : Spans mark letters.chars false [] rest := {
        isAlpha := letters.isAlpha
        isDigit := List.forall_mem_nil _
        unmarked₁ := fun _ => head?_ne_mark (of_mem_head?_append letters.ne_nil
          fun c hc => ne_mark_of_isAlpha (letters.isAlpha c hc))
        lettersEnd := fun c hc => ((hrest c hc).2 rfl).1
        unmarked₂ := fun _ => head?_ne_mark fun c hc => ((hrest c hc).2 rfl).2
        digitsEnd := hdigitsEnd }
      have hscan := side?_of_spans hspans
      simp only [letters.reads, List.isEmpty_eq_false_iff.mpr letters.ne_nil] at hscan
      simpa [chars, side, Except.isOk, Except.toBool, markChars] using hscan
  | row marks digits =>
      have hspans (mark₁ mark₂ : Bool) (hmarks : mark₁ = false → mark₂ = false) :
          Spans mark₁ [] mark₂ digits.chars rest := {
        isAlpha := List.forall_mem_nil _
        isDigit := digits.isDigit
        unmarked₁ := fun h => by
          rw [hmarks h]
          exact head?_ne_mark fun c hc => ne_mark_of_isDigit (hdigits digits c hc)
        lettersEnd := hmarked mark₂ digits
        unmarked₂ := fun _ => head?_ne_mark fun c hc => ne_mark_of_isDigit (hdigits digits c hc)
        digitsEnd := hdigitsEnd }
      have hscan (mark₁ mark₂ : Bool) (hmarks : mark₁ = false → mark₂ = false) :
          Token.side? (markChars mark₁ ++ markChars mark₂ ++ digits.chars ++ rest) =
            some ((markChars mark₁ ++ markChars mark₂ ++ digits.chars).length, .row) := by
        simpa [digits.reads, Nat.add_assoc] using side?_of_spans (hspans mark₁ mark₂ hmarks)
      -- a row takes up to two marks, since the scan looks for one in front of missing letters
      obtain rfl | rfl | rfl := marks_cases marks
      · exact hscan false false (fun _ => rfl)
      · exact hscan true false (fun _ => rfl)
      · exact hscan true true nofun

theorem endsBefore_nil (corner : Corner) : corner.EndsBefore [] := by
  rintro c ⟨⟩

theorem endsBefore_colon (corner : Corner) (rest : List Char) :
    corner.EndsBefore (':' :: rest) := by
  rintro c ⟨⟩
  exact ⟨by decide, fun _ => by decide⟩

theorem side?_self (corner : Corner) :
    Token.side? corner.chars = some (corner.chars.length, corner.side) := by
  have h := corner.side?_append corner.endsBefore_nil
  rwa [List.append_nil] at h

theorem exists_of_side? {side : Token.Side} (h : Token.side? cs = some (n, side)) :
    ∃ (corner : Corner) (rest : List Char),
      cs = corner.chars ++ rest ∧ n = corner.chars.length ∧ side = corner.side := by
  obtain ⟨mark₁, letters, mark₂, digits, rest, rfl, hspans⟩ := exists_spans cs
  rw [side?_of_spans hspans] at h
  dsimp only at h
  -- without letters it is a row, without digits a column, and with both a cell
  split at h
  · rename_i hletters
    obtain rfl := List.isEmpty_iff.mp hletters
    split at h
    · rename_i hgrid
      obtain ⟨row, hrow⟩ := Option.isSome_iff_exists.mp hgrid
      cases h
      match mark₁, mark₂ with
      | false, false =>
          exact ⟨.row 0 ⟨digits, row, hrow⟩, rest, rfl, by simp [chars, markChars], rfl⟩
      | true, false =>
          exact ⟨.row 1 ⟨digits, row, hrow⟩, rest, rfl, Nat.add_comm _ _, rfl⟩
      | true, true =>
          exact ⟨.row 2 ⟨digits, row, hrow⟩, rest, rfl, by simp [chars, markChars]; omega, rfl⟩
      | false, true => exact absurd rfl (hspans.unmarked₁ rfl)
    · cases h
  split at h
  · cases h
  rename_i hcol
  obtain ⟨col, hcol⟩ : ∃ col, Grid.columnOfLetters letters = .ok col := by
    cases hcol' : Grid.columnOfLetters letters with
    | error e => simp [hcol', Except.isOk, Except.toBool] at hcol
    | ok col => exact ⟨col, rfl⟩
  split at h
  · rename_i hdigits
    obtain rfl := List.isEmpty_iff.mp hdigits
    split at h
    · rename_i hmark₂
      cases h
      refine ⟨.column mark₁ ⟨letters, col, hcol⟩, rest, ?_, ?_, rfl⟩
      · simp [chars, List.length_eq_zero_iff.mp hmark₂]
      · simp [chars]
    · cases h
  split at h
  · rename_i hgrid
    obtain ⟨row, hrow⟩ := Option.isSome_iff_exists.mp hgrid
    cases h
    refine ⟨.cell mark₁ ⟨letters, col, hcol⟩ mark₂ ⟨digits, row, hrow⟩, rest, ?_, ?_, rfl⟩
    · simp [chars]
    · simp [chars, Nat.add_assoc]
  · cases h

end Corner

/-! ## Sheets in front of a corner -/

/-- The name of a sheet as it is written in front of a corner: a word, or any text between
apostrophes. -/
inductive Qualifier where
  | word (name : List Char) (ne_nil : name ≠ []) (isWord : ∀ c ∈ name, isWordChar c)
  | quoted (name : List Char) (ne_nil : name ≠ [])

namespace Qualifier

def name : Qualifier → List Char
  | .word name .. | .quoted name _ => name

def sheet (qualifier : Qualifier) : String := String.ofList qualifier.name

/-- The name as written, and the `!` behind it. -/
def chars : Qualifier → List Char
  | .word name .. => name ++ ['!']
  | .quoted name _ => '\'' :: (SheetName.double name ++ ['\'', '!'])

/-- What is written in front of a corner that may have no sheet. -/
def charsOf : Option Qualifier → List Char
  | none => []
  | some qualifier => qualifier.chars

theorem double_ne_nil {name : List Char} (hne : name ≠ []) : SheetName.double name ≠ [] := by
  obtain ⟨c, cs, rfl⟩ := List.exists_cons_of_ne_nil hne
  unfold SheetName.double
  split <;> simp

theorem quotedLength?_double (name : List Char) (hrest : rest.head? ≠ some '\'') :
    Token.quotedLength? (SheetName.double name ++ '\'' :: rest) =
      some (SheetName.double name).length := by
  induction name with
  | nil =>
      rw [SheetName.double, List.nil_append, Token.quotedLength?]
      · rfl
      · rintro cs rfl
        exact hrest rfl
  | cons c cs ih =>
      unfold SheetName.double
      split
      · rw [List.cons_append, List.cons_append, Token.quotedLength?, ih]
        rfl
      · rename_i hc
        rw [List.cons_append, Token.quotedLength?, ih]
        · rfl
        · exact fun _ h _ => hc h
        · exact hc

theorem exists_double (h : Token.quotedLength? cs = some n) : ∃ name rest,
    cs = SheetName.double name ++ '\'' :: rest ∧ n = (SheetName.double name).length := by
  fun_induction Token.quotedLength? cs generalizing n with
  | case1 => cases h
  | case2 cs ih =>
      obtain ⟨k, hk, rfl⟩ := Option.map_eq_some_iff.mp h
      obtain ⟨name, rest, rfl, rfl⟩ := ih hk
      exact ⟨'\'' :: name, rest, rfl, rfl⟩
  | case3 cs _ =>
      cases h
      exact ⟨[], cs, rfl, rfl⟩
  | case4 c cs _ hc ih =>
      obtain ⟨k, hk, rfl⟩ := Option.map_eq_some_iff.mp h
      obtain ⟨name, rest, rfl, rfl⟩ := ih hk
      have hdouble : SheetName.double (c :: name) = c :: SheetName.double name := if_neg hc
      exact ⟨c :: name, rest, by rw [hdouble, List.cons_append],
        by rw [hdouble, List.length_cons]⟩

theorem isWordChar_bang : isWordChar '!' = false := by decide

theorem isWordChar_quote : isWordChar '\'' = false := by decide

/-- Text that starts with no apostrophe starts with a sheet if its word ends at `!`. -/
theorem sheetLength?_of_head (h : cs.head? ≠ some '\'') :
    Token.sheetLength? cs =
      if (cs.takeWhile isWordChar).length = 0 then none
      else if (cs.drop (cs.takeWhile isWordChar).length).head? = some '!' then
        some ((cs.takeWhile isWordChar).length + 1)
      else none := by
  unfold Token.sheetLength?
  split
  · exact absurd rfl h
  · dsimp only
    split <;> rfl

/-- What is scanned in front of a corner is a sheet. -/
theorem sheetLength?_append (qualifier : Qualifier) (rest : List Char) :
    Token.sheetLength? (qualifier.chars ++ rest) = some qualifier.chars.length := by
  cases qualifier with
  | word name hne hword =>
      have hhead : (name ++ '!' :: rest).head? ≠ some '\'' := by
        intro hhead
        have hquote := of_mem_head?_append hne hword '\'' hhead
        rw [isWordChar_quote] at hquote
        cases hquote
      have htake : (name ++ '!' :: rest).takeWhile isWordChar = name :=
        takeWhile_append hword fun c hc => Option.some.inj hc ▸ isWordChar_bang
      have hpos : name.length ≠ 0 := fun h => hne (List.length_eq_zero_iff.mp h)
      rw [chars, List.append_assoc, List.singleton_append, sheetLength?_of_head hhead, htake,
        if_neg hpos, List.drop_left, List.head?_cons, if_pos rfl, List.length_append,
        List.length_singleton]
  | quoted name hne =>
      have hlength : Token.quotedLength? (SheetName.double name ++ '\'' :: '!' :: rest) = _ :=
        quotedLength?_double name (by simp)
      have hpos : (SheetName.double name).length ≠ 0 :=
        fun h => double_ne_nil hne (List.length_eq_zero_iff.mp h)
      have htext : chars (.quoted name hne) ++ rest =
          '\'' :: (SheetName.double name ++ '\'' :: '!' :: rest) := by
        simp [chars]
      rw [htext, Token.sheetLength?]
      simp [hlength, hpos, chars]

theorem exists_of_sheetLength? (h : Token.sheetLength? cs = some n) :
    ∃ (qualifier : Qualifier) (rest : List Char),
      cs = qualifier.chars ++ rest ∧ n = qualifier.chars.length := by
  by_cases hhead : cs.head? = some '\''
  · obtain ⟨cs, rfl⟩ := List.head?_eq_some_iff.mp hhead
    rw [Token.sheetLength?] at h
    obtain ⟨k, hk, h⟩ := Option.bind_eq_some_iff.mp h
    obtain ⟨length, hlength, hk⟩ := Option.bind_eq_some_iff.mp hk
    obtain ⟨name, rest, rfl, rfl⟩ := exists_double hlength
    split at hk
    · cases hk
    rename_i hpos
    cases hk
    split at h
    · rename_i hbang
      cases h
      have hdrop : (SheetName.double name ++ '\'' :: rest).drop
          ((SheetName.double name).length + 1) = rest := by
        rw [← List.drop_drop, List.drop_left, List.drop_one, List.tail_cons]
      rw [List.drop_succ_cons, hdrop] at hbang
      obtain ⟨rest, rfl⟩ := List.head?_eq_some_iff.mp hbang
      refine ⟨.quoted name ?_, rest, ?_, ?_⟩
      · rintro rfl
        exact hpos rfl
      · simp [chars]
      · simp [chars]
    · cases h
  · rw [sheetLength?_of_head hhead] at h
    split at h
    · cases h
    rename_i hpos
    split at h
    · rename_i hbang
      cases h
      obtain ⟨rest, hrest⟩ := List.head?_eq_some_iff.mp hbang
      refine ⟨.word (cs.takeWhile isWordChar) ?_ (List.all_eq_true.mp List.all_takeWhile), rest,
        ?_, ?_⟩
      · exact fun hnil => hpos (congrArg List.length hnil)
      · rw [chars, List.append_assoc, List.singleton_append, ← hrest,
          List.prefix_iff_eq_append.mp (List.takeWhile_prefix _)]
      · simp [chars]
    · cases h

/-- `Sheet1`, the sheet of a new workbook. -/
def sheet1 : Qualifier :=
  .word "Sheet1".toList (by decide) (List.all_eq_true.mp (by decide))

/-- `SHEET1`. -/
def raisedSheet1 : Qualifier :=
  .word "SHEET1".toList (by decide) (List.all_eq_true.mp (by decide))

end Qualifier

namespace Corner

variable {corner : Corner}

theorem of_mem_chars {c : Char} (hc : c ∈ corner.chars) : c = '$' ∨ c.isAlpha ∨ c.isDigit := by
  have hmark {mark : Bool} (hc : c ∈ markChars mark) : c = '$' := by
    cases mark with
    | true => exact List.mem_singleton.mp hc
    | false => cases hc
  cases corner with
  | cell colMark letters rowMark digits =>
      obtain hc | hc := List.mem_append.mp hc
      · obtain hc | hc := List.mem_append.mp hc
        · exact .inl (hmark hc)
        · exact .inr (.inl (letters.isAlpha c hc))
      · obtain hc | hc := List.mem_append.mp hc
        · exact .inl (hmark hc)
        · exact .inr (.inr (digits.isDigit c hc))
  | column mark letters =>
      obtain hc | hc := List.mem_append.mp hc
      · exact .inl (hmark hc)
      · exact .inr (.inl (letters.isAlpha c hc))
  | row marks digits =>
      obtain hc | hc := List.mem_append.mp hc
      · exact .inl (List.mem_replicate.mp hc).2
      · exact .inr (.inr (digits.isDigit c hc))

/-- A mark of another kind is no part of a corner. -/
theorem notMem_chars {c : Char} (hmark : c ≠ '$') (halpha : c.isAlpha = false)
    (hdigit : c.isDigit = false) : c ∉ corner.chars := by
  intro hc
  obtain h | h | h := of_mem_chars hc
  · exact hmark h
  · rw [halpha] at h
    cases h
  · rw [hdigit] at h
    cases h

/-- A corner ends with a letter or a digit. -/
theorem exists_last (corner : Corner) : ∃ front c, corner.chars = front ++ [c] ∧ c.isAlphanum := by
  have hlast {front back : List Char} (hne : back ≠ []) (hback : ∀ c ∈ back, c.isAlphanum) :
      ∃ cs c, front ++ back = cs ++ [c] ∧ c.isAlphanum := by
    refine ⟨front ++ back.dropLast, back.getLast hne, ?_, hback _ (List.getLast_mem hne)⟩
    rw [List.append_assoc, List.dropLast_append_getLast]
  have hletters (letters : ColumnLetters) : ∀ c ∈ letters.chars, c.isAlphanum :=
    fun c hc => by simp [Char.isAlphanum, letters.isAlpha c hc]
  have hdigits (digits : RowDigits) : ∀ c ∈ digits.chars, c.isAlphanum :=
    fun c hc => by simp [Char.isAlphanum, digits.isDigit c hc]
  cases corner with
  | cell colMark letters rowMark digits =>
      rw [chars, ← List.append_assoc]
      exact hlast digits.ne_nil (hdigits digits)
  | column mark letters => exact hlast letters.ne_nil (hletters letters)
  | row marks digits => exact hlast digits.ne_nil (hdigits digits)

theorem chars_ne_nil (corner : Corner) : corner.chars ≠ [] := by
  obtain ⟨front, c, h, -⟩ := corner.exists_last
  rw [h]
  exact List.append_ne_nil_of_right_ne_nil _ (List.cons_ne_nil _ _)

/-- No sheet stands in front of a corner that ends where no name goes on. -/
theorem sheetLength?_chars (corner : Corner)
    (hrest : ∀ c ∈ rest.head?, isWordChar c = false ∧ c ≠ '!') :
    Token.sheetLength? (corner.chars ++ rest) = none := by
  have hhead : (corner.chars ++ rest).head? ≠ some '\'' := fun hhead =>
    notMem_chars (by decide) (by decide) (by decide)
      (List.mem_of_head? ((List.head?_append_of_ne_nil _ corner.chars_ne_nil).symm.trans hhead))
  have hbang : '!' ∉ corner.chars := notMem_chars (by decide) (by decide) (by decide)
  obtain ⟨front, back, hfront, hword, hback⟩ := exists_span isWordChar (corner.chars ++ rest)
  rw [Qualifier.sheetLength?_of_head hhead, hfront, takeWhile_append hword hback, List.drop_left]
  split
  · rfl
  rw [if_neg]
  intro hhead
  obtain ⟨back, rfl⟩ := List.head?_eq_some_iff.mp hhead
  obtain ⟨cs, hcorner, hcs⟩ | ⟨cs, hfront, hrest'⟩ := List.append_eq_append_iff.mp hfront
  · -- the `!` stands behind the corner, where the word has ended before
    cases cs with
    | nil => exact (hrest '!' (hcs ▸ rfl)).2 rfl
    | cons c cs =>
        have hc := hword c (hcorner ▸ List.mem_append_right _ List.mem_cons_self)
        rw [(hrest c (hcs ▸ rfl)).1] at hc
        cases hc
  · cases cs with
    | nil =>
        obtain rfl : '!' :: back = rest := hrest'
        exact (hrest '!' rfl).2 rfl
    | cons c cs =>
        obtain ⟨rfl, -⟩ := List.cons.inj hrest'
        exact hbang (hfront ▸ List.mem_append_right _ List.mem_cons_self)

theorem sheetLength?_self (corner : Corner) : Token.sheetLength? corner.chars = none := by
  have h := @sheetLength?_chars [] corner (by rintro c ⟨⟩)
  rwa [List.append_nil] at h

end Corner

/-! ## References -/

/-- The parts of a reference as it is written: a cell, or two corners of one sort. A sheet in front
of the second corner needs one in front of the first. -/
inductive Parts where
  | single (qualifier : Option Qualifier) (corner : Corner) (isCell : corner.side = .cell)
  | pair (qualifier : Option Qualifier) (first : Corner) (again : Option Qualifier)
    (second : Corner) (sameSide : second.side = first.side)
    (qualified : again.isSome → qualifier.isSome)

namespace Parts

open Qualifier (charsOf)

/-- One cell, without marks. -/
def ofCell (qualifier : Option Qualifier) (letters : ColumnLetters) (digits : RowDigits) : Parts :=
  .single qualifier (.cell false letters false digits) rfl

/-- What stands in front of the first corner. -/
def qualifier : Parts → Option Qualifier
  | .single qualifier .. | .pair qualifier .. => qualifier

def chars : Parts → List Char
  | .single qualifier corner _ => charsOf qualifier ++ corner.chars
  | .pair qualifier first again second .. =>
    charsOf qualifier ++ (first.chars ++ ':' :: (charsOf again ++ second.chars))

def text (parts : Parts) : String := String.ofList parts.chars

def kind (parts : Parts) : TokenKind :=
  if parts.qualifier.isSome then .sheetReference else .reference

def areaKind : Token.Side → AreaKind
  | .cell => .cells
  | .column => .columns
  | .row => .rows

/-- What two corners are the corners of, the one with the least row and column first. -/
def cornersOf (first second : Corner) : Corners :=
  let (a, b) := Coord.corners first.first second.last
  { first := a, last := b, kind := areaKind first.side }

/-- What the parts denote: the sheet in front, if there is one, and a cell or an area on it. -/
def expr : Parts → Expr
  | .single qualifier corner _ => .cell (qualifier.map Qualifier.sheet) corner.first
  | .pair qualifier first _ second _ _ =>
    .area (qualifier.map Qualifier.sheet) (cornersOf first second)

variable {kind : TokenKind} {qualifier again : Option Qualifier} {first second : Corner}

theorem continuesName_nil : Token.continuesName [] = false := rfl

theorem sheetLength?_charsOf (qualifier : Option Qualifier)
    (hnone : qualifier = none → Token.sheetLength? rest = none) :
    Token.sheetLength? (charsOf qualifier ++ rest) = qualifier.map (·.chars.length) := by
  cases qualifier with
  | none => exact hnone rfl
  | some qualifier => exact qualifier.sheetLength?_append rest

theorem length_charsOf (qualifier : Option Qualifier) :
    (charsOf qualifier).length = (qualifier.map (·.chars.length)).getD 0 := by
  cases qualifier <;> rfl

theorem secondCorner?_chars (sameSide : second.side = first.side) (withSheet : Bool)
    (qualified : again.isSome → withSheet) :
    Token.secondCorner? (':' :: (charsOf again ++ second.chars)) withSheet first.side =
      some (1 + (charsOf again ++ second.chars).length) := by
  have hsheet : (if withSheet then (Token.sheetLength? (charsOf again ++ second.chars)).getD 0
      else 0) = (charsOf again).length := by
    rw [sheetLength?_charsOf again fun _ => second.sheetLength?_self, length_charsOf]
    cases again with
    | none => simp
    | some again => rw [if_pos (qualified rfl)]
  rw [Token.secondCorner?]
  dsimp only
  rw [hsheet, List.drop_left, second.side?_self, Option.bind_some]
  simp [sameSide, continuesName_nil, Nat.add_assoc]

/-- Text made of parts is scanned as one reference. -/
theorem reference?_chars (parts : Parts) :
    Token.reference? parts.chars = some (parts.kind, parts.chars.length) := by
  cases parts with
  | single qualifier corner isCell =>
      have hdrop : (charsOf qualifier ++ corner.chars).drop
          ((charsOf qualifier).length + corner.chars.length) = [] := by
        rw [← List.length_append, List.drop_length]
      unfold Token.reference?
      simp only [chars, sheetLength?_charsOf qualifier fun _ => corner.sheetLength?_self,
        ← length_charsOf, List.drop_left, corner.side?_self, Option.bind_some, hdrop]
      simp [Token.secondCorner?, isCell, continuesName_nil]
      rfl
  | pair qualifier first again second sameSide qualified =>
      have hcorner (rest : List Char) :
          Token.sheetLength? (first.chars ++ ':' :: rest) = none :=
        first.sheetLength?_chars fun c hc => by
          cases hc
          decide
      have hsecond := secondCorner?_chars sameSide qualifier.isSome qualified
      have hdrop : (charsOf qualifier ++ (first.chars ++ ':' :: (charsOf again ++
          second.chars))).drop ((charsOf qualifier).length + first.chars.length) =
            ':' :: (charsOf again ++ second.chars) := by
        rw [← List.drop_drop, List.drop_left, List.drop_left]
      have hlength : (charsOf qualifier).length + first.chars.length +
          (1 + (charsOf again ++ second.chars).length) =
            (chars (.pair qualifier first again second sameSide qualified)).length := by
        simp only [chars, List.length_append, List.length_cons]
        omega
      unfold Token.reference?
      simp only [chars, sheetLength?_charsOf qualifier fun _ => hcorner _, ← length_charsOf,
        List.drop_left, first.side?_append (first.endsBefore_colon _), Option.bind_some, hdrop,
        Option.isSome_map, hsecond]
      simp only [hlength]
      rw [show (charsOf qualifier ++ (first.chars ++ ':' :: (charsOf again ++ second.chars))) =
        chars (.pair qualifier first again second sameSide qualified) from rfl, List.drop_length]
      rfl

theorem exists_qualifier (cs : List Char) : ∃ (qualifier : Option Qualifier) (rest : List Char),
    cs = charsOf qualifier ++ rest ∧ (Token.sheetLength? cs).getD 0 = (charsOf qualifier).length ∧
      (Token.sheetLength? cs).isSome = qualifier.isSome := by
  cases h : Token.sheetLength? cs with
  | none => exact ⟨none, cs, rfl, rfl, rfl⟩
  | some n =>
      obtain ⟨qualifier, rest, rfl, rfl⟩ := Qualifier.exists_of_sheetLength? h
      exact ⟨some qualifier, rest, rfl, rfl, rfl⟩

theorem exists_of_secondCorner? {side : Token.Side} {withSheet : Bool}
    (h : Token.secondCorner? cs withSheet side = some n) :
    ∃ (again : Option Qualifier) (second : Corner) (rest : List Char),
      cs = ':' :: (charsOf again ++ second.chars) ++ rest ∧
      n = 1 + (charsOf again ++ second.chars).length ∧ second.side = side ∧
      (again.isSome → withSheet) := by
  unfold Token.secondCorner? at h
  split at h
  · rename_i cs
    dsimp only at h
    obtain ⟨again, rest, hcs, hlength, hqualified⟩ :
        ∃ (again : Option Qualifier) (rest : List Char), cs = charsOf again ++ rest ∧
        (if withSheet then (Token.sheetLength? cs).getD 0 else 0) = (charsOf again).length ∧
        (again.isSome → withSheet) := by
      cases withSheet with
      | false => exact ⟨none, cs, rfl, rfl, nofun⟩
      | true =>
          obtain ⟨again, rest, hcs, hlength, -⟩ := exists_qualifier cs
          exact ⟨again, rest, hcs, hlength, fun _ => rfl⟩
    rw [hlength, hcs, List.drop_left] at h
    obtain ⟨⟨k, side'⟩, hside, h⟩ := Option.bind_eq_some_iff.mp h
    obtain ⟨second, rest, rfl, rfl, rfl⟩ := Corner.exists_of_side? hside
    split at h
    · rename_i hends
      cases h
      refine ⟨again, second, rest, ?_, ?_, ?_, hqualified⟩
      · rw [hcs, List.cons_append, List.append_assoc]
      · rw [List.length_append, Nat.add_assoc]
      · simpa using ((Bool.and_eq_true _ _).mp hends).1
    · cases h
  · cases h

/-- What is scanned as a reference is made of parts. -/
theorem exists_of_reference? (h : Token.reference? cs = some (kind, n)) :
    ∃ (parts : Parts) (rest : List Char),
      cs = parts.chars ++ rest ∧ n = parts.chars.length ∧ kind = parts.kind := by
  unfold Token.reference? at h
  dsimp only at h
  obtain ⟨qualifier, rest, rfl, hlength, hsome⟩ := exists_qualifier cs
  rw [hlength, hsome, List.drop_left] at h
  obtain ⟨⟨k, side⟩, hside, h⟩ := Option.bind_eq_some_iff.mp h
  obtain ⟨first, rest, rfl, rfl, rfl⟩ := Corner.exists_of_side? hside
  obtain ⟨length, hlength, h⟩ := Option.bind_eq_some_iff.mp h
  split at h
  · cases h
  obtain ⟨rfl, rfl⟩ := Prod.mk.inj (Option.some.inj h)
  rw [← List.drop_drop, List.drop_left, List.drop_left] at hlength
  split at hlength
  · rename_i m hsecond
    obtain ⟨again, second, rest, rfl, rfl, hsame, hqualified⟩ := exists_of_secondCorner? hsecond
    cases hlength
    refine ⟨.pair qualifier first again second hsame hqualified, rest, ?_, ?_, rfl⟩
    · simp [chars]
    · simp only [chars, List.length_append, List.length_cons]
      omega
  · split at hlength
    · rename_i hcell
      cases hlength
      exact ⟨.single qualifier first hcell, rest, (List.append_assoc _ _ _).symm,
        (List.length_append).symm, rfl⟩
    · cases hlength

end Parts

end Spreadsheet.Formula
