-- SUMMARY: The text of a cell or an area reads back as that cell or area, whatever its sheet is called.
import Mathlib.Data.List.Basic
import Spreadsheet.Proofs.Workbook

/-!
# Reference text reads back

A reference is written with its sheet in front, quoted where the name could be read as something
else, and the coordinates behind it. Reading takes the name off again, however many apostrophes,
blanks or exclamation marks are in it, and finds the coordinates.
-/

namespace Spreadsheet

open Text

namespace Text

variable {c : Char} {cs : List Char}

/-! ## Blanks and letters -/

/-- The code points of the blanks. -/
def blanks : List Nat := [0x20, 9, 10, 11, 12, 13] ++ wideBlanks

theorem isBlank_iff : isBlank c ↔ c.toNat ∈ blanks := by
  have hspace : c = ' ' ↔ c.toNat = 0x20 := by
    rw [← Char.toNat_inj]
    rfl
  simp only [isBlank, blanks, Bool.or_eq_true, beq_iff_eq, Bool.and_eq_true, decide_eq_true_eq,
    List.contains_iff_mem, hspace, List.mem_append, List.mem_cons, List.not_mem_nil, or_false]
  grind

theorem isBlank_of_isWordChar (hc : isWordChar c) : isBlank c = false := by
  have hblanks : ∀ n ∈ blanks, isWordChar (Char.ofNat n) = false := by decide +kernel
  refine Bool.eq_false_iff.mpr fun hblank => ?_
  have hword := hblanks _ (isBlank_iff.mp hblank)
  rw [Char.ofNat_toNat, hc] at hword
  cases hword

theorem isWordChar_of_isAlphanum (hc : c.isAlphanum) : isWordChar c := by
  simp [isWordChar, isLetterOrNumeral_of_isAlphanum hc]

/-- Letters of the alphabet come after the digits and before the characters of several bytes. -/
theorem toNat_of_isAlpha (hc : c.isAlpha) : 65 ≤ c.toNat ∧ c.toNat ≤ 122 := by
  obtain hupper | hlower := (Bool.or_eq_true _ _).mp hc
  · have hrange : c.val ≥ 65 ∧ c.val ≤ 90 := of_decide_eq_true hupper
    have hhigh : c.toNat ≤ 90 := UInt32.le_iff_toNat_le.mp hrange.2
    exact ⟨UInt32.le_iff_toNat_le.mp hrange.1, Nat.le_trans hhigh (by decide)⟩
  · obtain ⟨hlow, hhigh⟩ := (Bool.and_eq_true _ _).mp hlower
    have hlow : 97 ≤ c.toNat := UInt32.le_iff_toNat_le.mp (of_decide_eq_true hlow)
    exact ⟨Nat.le_trans (by decide) hlow, UInt32.le_iff_toNat_le.mp (of_decide_eq_true hhigh)⟩

theorem not_isAlpha_of_isDigit (hc : c.isDigit) : c.isAlpha = false := by
  refine Bool.eq_false_iff.mpr fun halpha => ?_
  have hdigit : c.toNat ≤ 57 :=
    UInt32.le_iff_toNat_le.mp (of_decide_eq_true ((Bool.and_eq_true _ _).mp hc).2)
  exact absurd (Nat.le_trans (toNat_of_isAlpha halpha).1 hdigit) (by decide)

/-- Text without a blank at either end is not trimmed. -/
theorem trimChars_eq_self (hfirst : ∀ c ∈ cs.head?, isBlank c = false)
    (hlast : ∀ c ∈ cs.getLast?, isBlank c = false) : trimChars cs = cs := by
  have hdrop {cs : List Char} (hfirst : ∀ c ∈ cs.head?, isBlank c = false) :
      cs.dropWhile isBlank = cs := by
    cases cs with
    | nil => rfl
    | cons c cs => exact List.dropWhile_cons_of_neg (by simp [hfirst c rfl])
  rw [trimChars, trimLeft, hdrop hfirst, trimRight, hdrop, List.reverse_reverse]
  rwa [List.head?_reverse]

/-- Text that ends without blanks is not trimmed unless it starts with one. -/
theorem trimChars_append {ds : List Char} (hne : ds ≠ []) (hds : ∀ c ∈ ds, isBlank c = false)
    (hfirst : ∀ c ∈ (cs ++ ds).head?, isBlank c = false) : trimChars (cs ++ ds) = cs ++ ds := by
  refine trimChars_eq_self hfirst fun c hc => ?_
  rw [List.getLast?_append_of_ne_nil cs hne] at hc
  exact hds c (List.mem_of_getLast? hc)

end Text

/-! ## Column letters and digits -/

namespace Grid

variable {n k col row : Nat} {c : Char} {cs : List Char}

theorem columnFrom_append (n : Nat) (cs ds : List Char) :
    columnFrom n (cs ++ ds) = columnFrom n cs >>= (columnFrom · ds) := by
  induction cs generalizing n with
  | nil => rfl
  | cons c cs ih =>
      rw [List.cons_append, columnFrom, columnFrom]
      split
      · exact ih _
      · rfl

/-- The letters of a column are those of the alphabet. -/
theorem letter_spec (hk : k < 26) :
    (Char.ofNat ('A'.toNat + k)).isAlpha ∧ letterNumber (Char.ofNat ('A'.toNat + k)) = k + 1 := by
  have hall : ∀ k : Fin 26, (Char.ofNat ('A'.toNat + k)).isAlpha ∧
      letterNumber (Char.ofNat ('A'.toNat + k)) = k + 1 := by decide
  exact hall ⟨k, hk⟩

theorem isAlpha_of_mem_columnLetters (hc : c ∈ columnLetters n) : c.isAlpha := by
  fun_induction columnLetters n with
  | case1 => cases hc
  | case2 n ih =>
      obtain hc | hc := List.mem_append.mp hc
      · exact ih hc
      · exact List.mem_singleton.mp hc ▸ (letter_spec (Nat.mod_lt n (by decide))).1

theorem columnLetters_ne_nil (hn : 0 < n) : columnLetters n ≠ [] := by
  cases n with
  | zero => exact absurd hn (Nat.lt_irrefl 0)
  | succ n =>
      rw [columnLetters]
      exact List.append_ne_nil_of_right_ne_nil _ (List.cons_ne_nil _ _)

theorem columnFrom_columnLetters (n : Nat) : columnFrom 0 (columnLetters n) = .ok n := by
  fun_induction columnLetters n with
  | case1 => rfl
  | case2 n ih =>
      obtain ⟨halpha, hnumber⟩ := letter_spec (Nat.mod_lt n (by decide : 0 < 26))
      rw [columnFrom_append, ih]
      change columnFrom (n / 26) _ = _
      rw [columnFrom, if_pos halpha, columnFrom, hnumber]
      exact congrArg Except.ok (by omega)

/-- One more letter counts 26 times as far. -/
theorem length_columnLetters_succ_le {bound : Nat}
    (h : ∀ n ≤ bound, (columnLetters n).length ≤ k) (hn : n ≤ 26 * bound + 26) :
    (columnLetters n).length ≤ k + 1 := by
  cases n with
  | zero =>
      rw [columnLetters]
      exact Nat.zero_le _
  | succ n =>
      rw [columnLetters, List.length_append]
      exact Nat.succ_le_succ (h (n / 26) (by omega))

theorem byteLength_of_isAlpha (hcs : ∀ c ∈ cs, c.isAlpha) : byteLength cs = cs.length := by
  induction cs with
  | nil => rfl
  | cons c cs ih =>
      obtain ⟨hc, hcs⟩ := List.forall_mem_cons.mp hcs
      have hsize : c.utf8Size = 1 := by
        rw [Char.utf8Size_eq_one_iff, UInt32.le_iff_toNat_le]
        exact Nat.le_trans (toNat_of_isAlpha hc).2 (by decide)
      rw [byteLength_cons, hsize, ih hcs, List.length_cons, Nat.add_comm]

/-- The letters of a column of the grid, three at most, are read as that column. -/
theorem columnOfLetters_columnLetters (hcol : HasCol col) :
    columnOfLetters (columnLetters col) = .ok col := by
  obtain ⟨hpos, hle⟩ := hcol
  have hpos : 0 < col := Int.ofNat_lt.mp hpos
  have hle : col ≤ maxCols := Int.ofNat_le.mp hle
  have hlength : (columnLetters col).length ≤ 3 := by
    have h₀ : ∀ n ≤ 0, (columnLetters n).length ≤ 0 := by
      intro n hn
      rw [Nat.le_zero.mp hn, columnLetters]
      exact Nat.le_refl 0
    have h₁ := fun n => @length_columnLetters_succ_le n _ _ h₀
    have h₂ := fun n => @length_columnLetters_succ_le n _ _ h₁
    exact length_columnLetters_succ_le h₂ (Nat.le_trans hle (by decide))
  have hbytes : ¬ 3 < byteLength (columnLetters col) := by
    rw [byteLength_of_isAlpha fun c hc => isAlpha_of_mem_columnLetters hc]
    exact Nat.not_lt.mpr hlength
  unfold columnOfLetters
  simp only [unless_eq_ok, bind_eq_ok, pure_eq_ok]
  refine ⟨?_, hbytes, col, columnFrom_columnLetters col, Nat.not_lt.mpr hle, rfl⟩
  rw [List.isEmpty_iff]
  exact columnLetters_ne_nil hpos

theorem readRow?_toDigits (hrow : HasRow row) : readRow? (Nat.toDigits 10 row) = some row := by
  rw [readRow?, readNat?_toDigits, Option.filter_some, if_pos (decide_eq_true hrow)]

end Grid

/-! ## Coordinates -/

/-- One or more letters and digits: what coordinates are written with. -/
structure Text.Plain (cs : List Char) : Prop where
  ne_nil : cs ≠ []
  alphanum : ∀ c ∈ cs, c.isAlphanum

namespace Text.Plain

variable {cs ds : List Char}

theorem append (hcs : Plain cs) (hds : Plain ds) : Plain (cs ++ ds) where
  ne_nil := List.append_ne_nil_of_left_ne_nil hcs.ne_nil ds
  alphanum := List.forall_mem_append.mpr ⟨hcs.alphanum, hds.alphanum⟩

theorem notMem (hcs : Plain cs) {mark : Char} (hmark : mark.isAlphanum = false) : mark ∉ cs :=
  fun hmem => Bool.eq_false_iff.mp hmark (hcs.alphanum mark hmem)

theorem isBlank (hcs : Plain cs) : ∀ c ∈ cs, isBlank c = false :=
  fun c hc => isBlank_of_isWordChar (isWordChar_of_isAlphanum (hcs.alphanum c hc))

/-- Text that ends plain is not trimmed unless it starts with a blank. -/
theorem trimChars_append (hcs : Plain cs) (hfirst : ∀ c ∈ (ds ++ cs).head?, Text.isBlank c = false) :
    Text.trimChars (ds ++ cs) = ds ++ cs :=
  Text.trimChars_append hcs.ne_nil hcs.isBlank hfirst

theorem trimChars (hcs : Plain cs) : trimChars cs = cs :=
  @trimChars_append cs [] hcs fun c hc => hcs.isBlank c (List.mem_of_head? hc)

theorem columnLetters {col : Nat} (hcol : Grid.HasCol col) : Plain (Grid.columnLetters col) where
  ne_nil := Grid.columnLetters_ne_nil (Int.ofNat_lt.mp hcol.1)
  alphanum c hc := by simp [Char.isAlphanum, Grid.isAlpha_of_mem_columnLetters hc]

theorem toDigits (n : Nat) : Plain (Nat.toDigits 10 n) where
  ne_nil := Nat.toDigits_ne_nil
  alphanum c hc := by
    simp [Char.isAlphanum, Nat.isDigit_of_mem_toDigits (by decide) (by decide) hc]

end Text.Plain

namespace Coord

variable {row col : Nat} {cs : List Char}

theorem takeMark_of_plain (hcs : Plain cs) : takeMark cs = (false, cs) := by
  unfold takeMark
  split
  · exact absurd List.mem_cons_self (hcs.notMem (by decide : '$'.isAlphanum = false))
  · rfl

theorem isDigit_of_mem_toDigits {c : Char} (hc : c ∈ Nat.toDigits 10 row) : c.isDigit :=
  Nat.isDigit_of_mem_toDigits (by decide) (by decide) hc

theorem exists_head_toDigits (row : Nat) :
    ∃ c cs, Nat.toDigits 10 row = c :: cs ∧ c.isDigit = true := by
  obtain ⟨c, cs, hdigits⟩ := List.exists_cons_of_ne_nil (Nat.toDigits_ne_nil (b := 10) (n := row))
  exact ⟨c, cs, hdigits, isDigit_of_mem_toDigits (hdigits ▸ List.mem_cons_self)⟩

/-- Letters end where a digit follows. -/
theorem span_letters {letters digits : List Char} (hletters : ∀ c ∈ letters, c.isAlpha)
    (hdigits : ∀ c ∈ digits, c.isDigit) :
    (letters ++ digits).takeWhile Char.isAlpha = letters ∧
      (letters ++ digits).dropWhile Char.isAlpha = digits := by
  rw [List.takeWhile_append_of_pos hletters, List.dropWhile_append_of_pos hletters]
  cases digits with
  | nil => simp
  | cons c cs =>
      have hc := not_isAlpha_of_isDigit (hdigits c List.mem_cons_self)
      simp [hc]

/-- Letters with digits behind them are a coordinate as soon as the digits are a row. -/
theorem ofChars_letters {digits : List Char} (hcol : Grid.HasCol col)
    (hdigits : ∀ c ∈ digits, c.isDigit) :
    ofChars (Grid.columnLetters col ++ digits) =
      match Grid.readRow? digits with
      | some row => .ok { row, col }
      | none => .error (.invalidRow (String.ofList (Grid.columnLetters col ++ digits))) := by
  have hletters : Plain (Grid.columnLetters col) := .columnLetters hcol
  have hmark : takeMark digits = (false, digits) := by
    unfold takeMark
    split
    · exact absurd (hdigits '$' List.mem_cons_self) (by decide)
    · rfl
  have hplain : Plain (Grid.columnLetters col ++ digits) := by
    refine ⟨List.append_ne_nil_of_left_ne_nil hletters.ne_nil _, List.forall_mem_append.mpr
      ⟨hletters.alphanum, fun c hc => ?_⟩⟩
    simp [Char.isAlphanum, hdigits c hc]
  obtain ⟨htake, hdrop⟩ := span_letters
    (fun c (hc : c ∈ Grid.columnLetters col) => Grid.isAlpha_of_mem_columnLetters hc) hdigits
  have hne : (Grid.columnLetters col).isEmpty = false :=
    List.isEmpty_eq_false_iff.mpr hletters.ne_nil
  have hne' : (Grid.columnLetters col ++ digits).isEmpty = false :=
    List.isEmpty_eq_false_iff.mpr hplain.ne_nil
  unfold ofChars
  simp only [hplain.trimChars, takeMark_of_plain hplain, htake, hdrop, hmark, hne, hne',
    Grid.columnOfLetters_columnLetters hcol]
  cases Grid.readRow? digits <;> rfl

theorem ofChars_text (hrow : Grid.HasRow row) (hcol : Grid.HasCol col) :
    ofChars (Grid.columnLetters col ++ Nat.toDigits 10 row) = .ok { row, col } := by
  rw [ofChars_letters hcol fun c hc => isDigit_of_mem_toDigits hc,
    Grid.readRow?_toDigits hrow]

/-- Digits alone are no coordinate. -/
theorem ofChars_toDigits (row : Nat) :
    ofChars (Nat.toDigits 10 row) =
      .error (.noColumnLetters (String.ofList (Nat.toDigits 10 row))) := by
  have hplain : Plain (Nat.toDigits 10 row) := .toDigits row
  obtain ⟨htake, -⟩ := @span_letters [] (Nat.toDigits 10 row) (List.forall_mem_nil _)
    fun c hc => isDigit_of_mem_toDigits hc
  have hne : (Nat.toDigits 10 row).isEmpty = false :=
    List.isEmpty_eq_false_iff.mpr hplain.ne_nil
  rw [List.nil_append] at htake
  unfold ofChars
  simp only [hplain.trimChars, takeMark_of_plain hplain, htake, hne]
  rfl

end Coord

/-! ## Sides of an area -/

namespace Reference

variable {row col row₁ col₁ row₂ col₂ : Nat}

theorem readCoord?_text (hrow : Grid.HasRow row) (hcol : Grid.HasCol col) :
    readCoord? (Grid.columnLetters col ++ Nat.toDigits 10 row) = some { row, col } := by
  rw [readCoord?, Coord.ofChars_text hrow hcol]

/-- Letters alone are no absolute row and column number, nor is what starts with a digit. -/
theorem readAbsoluteR1C1?_eq_none {cs : List Char}
    (hcs : (∀ c ∈ cs, c.isAlpha) ∨ ∃ c ∈ cs.head?, c.isDigit) : readAbsoluteR1C1? cs = none := by
  unfold readAbsoluteR1C1?
  split
  · rfl
  rename_i r cs
  split
  · rename_i hr
    have halpha : ∀ c ∈ r :: cs, c.isAlpha := by
      refine hcs.resolve_right ?_
      rintro ⟨c, hc, hdigit⟩
      obtain rfl : r = c := Option.some.inj hc
      have hnone : r.isDigit = false := by
        obtain rfl | rfl := (Bool.or_eq_true _ _).mp hr |>.imp eq_of_beq eq_of_beq <;> rfl
      rw [hnone] at hdigit
      cases hdigit
    have hdigits : cs.takeWhile Char.isDigit = [] := by
      cases cs with
      | nil => rfl
      | cons c cs =>
          refine List.takeWhile_cons_of_neg fun hdigit => ?_
          have hc := halpha c (List.mem_cons_of_mem r List.mem_cons_self)
          rw [not_isAlpha_of_isDigit hdigit] at hc
          cases hc
    split
    · rfl
    · split
      · rw [hdigits]
        rfl
      · rfl
  · rfl

theorem readCoord?_letters (hcol : Grid.HasCol col) :
    readCoord? (Grid.columnLetters col) = none := by
  have herror := Coord.ofChars_letters hcol (List.forall_mem_nil _)
  rw [List.append_nil] at herror
  rw [readCoord?, herror, (Plain.columnLetters hcol).trimChars]
  exact readAbsoluteR1C1?_eq_none (.inl fun c hc => Grid.isAlpha_of_mem_columnLetters hc)

theorem readCoord?_digits (row : Nat) : readCoord? (Nat.toDigits 10 row) = none := by
  rw [readCoord?, Coord.ofChars_toDigits]
  dsimp only
  rw [(Plain.toDigits row).trimChars]
  obtain ⟨c, cs, hdigits, hdigit⟩ := Coord.exists_head_toDigits row
  exact readAbsoluteR1C1?_eq_none (.inr ⟨c, hdigits ▸ rfl, hdigit⟩)

theorem readColumn?_letters (hcol : Grid.HasCol col) :
    readColumn? (Grid.columnLetters col) = some (col, false) := by
  have hplain := Plain.columnLetters hcol
  rw [readColumn?, hplain.trimChars, Coord.takeMark_of_plain hplain]
  simp only [Grid.columnOfLetters_columnLetters hcol]

theorem readColumn?_digits (row : Nat) : readColumn? (Nat.toDigits 10 row) = none := by
  have hplain := Plain.toDigits row
  rw [readColumn?, hplain.trimChars, Coord.takeMark_of_plain hplain]
  dsimp only
  split
  · rename_i col hcol
    unfold Grid.columnOfLetters at hcol
    simp only [unless_eq_ok, bind_eq_ok] at hcol
    obtain ⟨-, -, n, hfrom, -⟩ := hcol
    obtain ⟨c, cs, hdigits, hdigit⟩ := Coord.exists_head_toDigits row
    rw [hdigits, Grid.columnFrom, not_isAlpha_of_isDigit hdigit] at hfrom
    cases hfrom
  · rfl

theorem readRow?_digits (hrow : Grid.HasRow row) :
    readRow? (Nat.toDigits 10 row) = some (row, false) := by
  have hplain := Plain.toDigits row
  rw [readRow?, hplain.trimChars, Coord.takeMark_of_plain hplain]
  simp only [Grid.readRow?_toDigits hrow, Option.map_some]

end Reference

/-! ## Sheet names -/

namespace SheetName

variable {name : String} {cs rest body : List Char} {c : Char}

/-- A name that a reference can show: not empty, and without a colon, which separates corners. -/
structure Quotable (name : String) : Prop where
  ne_empty : name ≠ ""
  noColon : ':' ∉ name.toList

/-- All names of sheets are quotable. -/
theorem quotable_of_fault? (h : fault? name = none) : Quotable name := by
  unfold fault? at h
  dsimp only at h
  split at h
  · cases h
  rename_i hne
  split at h
  · cases h
  split at h
  · cases h
  rename_i hfind
  refine ⟨fun hempty => hne (by rw [hempty]; rfl), fun hcolon => ?_⟩
  exact List.find?_eq_none.mp hfind ':' hcolon (by decide)

theorem mem_of_mem_double (hc : c ∈ double cs) : c ∈ cs := by
  induction cs with
  | nil => cases hc
  | cons d cs ih =>
      unfold double at hc
      split at hc
      · rename_i hd
        subst hd
        simp only [List.mem_cons] at hc ⊢
        exact hc.elim .inl fun hc => hc.imp_right ih
      · exact List.mem_cons.mpr ((List.mem_cons.mp hc).imp_right ih)

/-- Doubled apostrophes are read as one each, up to the one that closes the name. -/
theorem takeQuoted_double (cs : List Char) (hrest : rest.head? ≠ some '\'') :
    takeQuoted (double cs ++ '\'' :: rest) = some (cs, rest) := by
  induction cs with
  | nil =>
      rw [double, List.nil_append, takeQuoted]
      rintro cs rfl
      exact hrest rfl
  | cons c cs ih =>
      unfold double
      split
      · rename_i hc
        rw [List.cons_append, List.cons_append, takeQuoted, ih, hc]
        rfl
      · rename_i hc
        rw [List.cons_append, takeQuoted, ih]
        · rfl
        · exact fun _ h _ => hc h
        · exact hc

theorem isWordChar_of_not_needsQuotes {cs : List Char} (h : needsQuotes cs = false) :
    cs ≠ [] ∧ ∀ c ∈ cs, isWordChar c := by
  simp only [needsQuotes, Bool.or_eq_false_iff, Bool.not_eq_false', List.all_eq_true] at h
  refine ⟨?_, h.1.1.2⟩
  rintro rfl
  exact absurd h.1.1.1 (by decide)

/-- A reference starts with the apostrophe of a quoted name or with a letter of the name. -/
theorem not_isBlank_of_beforeReference (name : String) (body : List Char) :
    ∀ c ∈ (beforeReference name ++ body).head?, isBlank c = false := by
  unfold beforeReference quotedChars
  cases hquotes : needsQuotes name.toList with
  | true =>
      rintro c ⟨⟩
      decide
  | false =>
      obtain ⟨hne, hword⟩ := isWordChar_of_not_needsQuotes hquotes
      obtain ⟨d, ds, hcs⟩ := List.exists_cons_of_ne_nil hne
      simp only [Bool.false_eq_true, if_false, hcs]
      rintro c ⟨⟩
      exact isBlank_of_isWordChar (hword _ (hcs ▸ List.mem_cons_self))

theorem notMem_beforeReference (hname : Quotable name) : ':' ∉ beforeReference name := by
  unfold beforeReference quotedChars
  split
  · have hdouble : ':' ∉ double name.toList := fun h => hname.noColon (mem_of_mem_double h)
    simp [hdouble]
  · simp [hname.noColon]

/-- The name in front is taken off, as it was before it was quoted. -/
theorem splitChars_beforeReference (hname : Quotable name) (hbody : Plain body) :
    splitChars (beforeReference name ++ body) = .ok (some name, body) := by
  unfold splitChars
  rw [hbody.trimChars_append (not_isBlank_of_beforeReference name body)]
  unfold beforeReference quotedChars
  cases hquotes : needsQuotes name.toList with
  | true =>
      have htake := @takeQuoted_double ('!' :: body) name.toList (by simp)
      have hne : name.toList ≠ [] := fun h => hname.ne_empty (String.toList_inj.mp h)
      obtain ⟨c, cs, hcs⟩ := List.exists_cons_of_ne_nil hne
      simp only [if_true, List.cons_append, List.append_assoc, List.nil_append, htake]
      rw [hcs]
      change Except.ok (some (String.ofList (c :: cs)), body) = _
      rw [← hcs, String.ofList_toList]
  | false =>
      obtain ⟨hne, hword⟩ := isWordChar_of_not_needsQuotes hquotes
      obtain ⟨c, cs, hcs⟩ := List.exists_cons_of_ne_nil hne
      have hlast : splitLast? '!' (name.toList ++ '!' :: body) = some (name.toList, body) :=
        splitLast?_append (hbody.notMem (by decide)) name.toList
      have hc : c ≠ '\'' := by
        rintro rfl
        have hquote := hword '\'' (hcs ▸ List.mem_cons_self)
        exact absurd hquote (by decide)
      simp only [Bool.false_eq_true, if_false, List.append_assoc, List.cons_append,
        List.nil_append]
      rw [hcs, List.cons_append] at hlast ⊢
      split
      · rename_i h
        exact absurd (List.cons.inj h).1 hc
      · simp only [hlast]
        rw [← hcs, String.ofList_toList]

theorem splitChars_plain (hbody : Plain body) : splitChars body = .ok (none, body) := by
  have hmark : splitLast? '!' body = none := splitLast?_eq_none_iff.mpr (hbody.notMem (by decide))
  unfold splitChars
  rw [hbody.trimChars]
  dsimp only
  split
  · exact absurd List.mem_cons_self (hbody.notMem (by decide : '\''.isAlphanum = false))
  · simp only [hmark]

theorem splitCornersChars_single (hname : Quotable name) (hbody : Plain body) :
    splitCornersChars (beforeReference name ++ body) = .ok (some name, body) := by
  have hcolon : ':' ∉ beforeReference name ++ body :=
    List.not_mem_append (notMem_beforeReference hname) (hbody.notMem (by decide))
  unfold splitCornersChars
  rw [hbody.trimChars_append (not_isBlank_of_beforeReference name body)]
  simp only [splitFirst?_eq_none_iff.mpr hcolon, splitChars_beforeReference hname hbody]

/-- The name stands once, in front of the first corner. -/
theorem splitCornersChars_pair {first second : List Char} (hname : Quotable name)
    (hfirst : Plain first) (hsecond : Plain second) :
    splitCornersChars (beforeReference name ++ (first ++ ':' :: second)) =
      .ok (some name, first ++ ':' :: second) := by
  have hcolon : ':' ∉ beforeReference name ++ first :=
    List.not_mem_append (notMem_beforeReference hname) (hfirst.notMem (by decide))
  have htext : beforeReference name ++ (first ++ ':' :: second) =
      (beforeReference name ++ (first ++ [':'])) ++ second := by simp
  have htrim : trimChars (beforeReference name ++ (first ++ ':' :: second)) =
      beforeReference name ++ (first ++ ':' :: second) := by
    rw [htext]
    refine hsecond.trimChars_append ?_
    rw [List.append_assoc]
    exact not_isBlank_of_beforeReference name _
  unfold splitCornersChars
  rw [htrim, ← List.append_assoc]
  simp only [splitFirst?_append hcolon, splitChars_beforeReference hname hfirst,
    splitChars_plain hsecond]
  rfl

end SheetName

/-! ## Cells and areas -/

/-- An area that reference text can show: its corners are in order in the grid, whole columns have
all rows, and whole rows have all columns. -/
structure Area.WellFormed (area : Area) : Prop extends area.InGrid where
  wholeColumns : area.kind = .columns → area.top = 1 ∧ area.bottom = Grid.maxRows
  wholeRows : area.kind = .rows → area.left = 1 ∧ area.right = Grid.maxCols

namespace Area.InGrid

variable {area : Area}

theorem hasRow_top (h : area.InGrid) : Grid.HasRow area.top :=
  ⟨Int.ofNat_le.mpr h.top, Int.ofNat_le.mpr (Nat.le_trans h.rows h.bottom_le)⟩

theorem hasRow_bottom (h : area.InGrid) : Grid.HasRow area.bottom :=
  ⟨Int.ofNat_le.mpr (Nat.le_trans h.top h.rows), Int.ofNat_le.mpr h.bottom_le⟩

theorem hasCol_left (h : area.InGrid) : Grid.HasCol area.left :=
  ⟨Int.ofNat_le.mpr h.left, Int.ofNat_le.mpr (Nat.le_trans h.cols h.right_le)⟩

theorem hasCol_right (h : area.InGrid) : Grid.HasCol area.right :=
  ⟨Int.ofNat_le.mpr (Nat.le_trans h.left h.cols), Int.ofNat_le.mpr h.right_le⟩

end Area.InGrid

namespace Reference

variable {sheet name : String} {area : Area} {body first second : List Char} {coord : Coord}
  {corners : Corners} {row₁ col₁ row₂ col₂ : Nat}

/-! Corners that are in order are taken as they stand. -/

theorem readSides?_cells (hrow₁ : Grid.HasRow row₁) (hcol₁ : Grid.HasCol col₁)
    (hrow₂ : Grid.HasRow row₂) (hcol₂ : Grid.HasCol col₂) (hrows : row₁ ≤ row₂)
    (hcols : col₁ ≤ col₂) :
    readSides? (Grid.columnLetters col₁ ++ Nat.toDigits 10 row₁)
        (Grid.columnLetters col₂ ++ Nat.toDigits 10 row₂) =
      some ⟨{ row := row₁, col := col₁ }, { row := row₂, col := col₂ }, .cells⟩ := by
  unfold readSides?
  simp only [readCoord?_text hrow₁ hcol₁, readCoord?_text hrow₂ hcol₂, Coord.corners,
    Nat.min_eq_left hrows, Nat.min_eq_left hcols, Nat.max_eq_right hrows, Nat.max_eq_right hcols]

theorem readSides?_columns (hcol₁ : Grid.HasCol col₁) (hcol₂ : Grid.HasCol col₂)
    (hcols : col₁ ≤ col₂) :
    readSides? (Grid.columnLetters col₁) (Grid.columnLetters col₂) =
      some ⟨{ row := 1, col := col₁ }, { row := Grid.maxRows, col := col₂ }, .columns⟩ := by
  have hgrid : 1 ≤ Grid.maxRows := by decide
  unfold readSides?
  simp only [readCoord?_letters hcol₁, readColumn?_letters hcol₁, readColumn?_letters hcol₂,
    Coord.corners, Nat.min_eq_left hgrid, Nat.min_eq_left hcols, Nat.max_eq_right hgrid,
    Nat.max_eq_right hcols]

theorem readSides?_rows (hrow₁ : Grid.HasRow row₁) (hrow₂ : Grid.HasRow row₂)
    (hrows : row₁ ≤ row₂) :
    readSides? (Nat.toDigits 10 row₁) (Nat.toDigits 10 row₂) =
      some ⟨{ row := row₁, col := 1 }, { row := row₂, col := Grid.maxCols }, .rows⟩ := by
  have hgrid : 1 ≤ Grid.maxCols := by decide
  unfold readSides?
  simp only [readCoord?_digits, readColumn?_digits, readRow?_digits hrow₁, readRow?_digits hrow₂,
    Coord.corners, Nat.min_eq_left hgrid, Nat.min_eq_left hrows, Nat.max_eq_right hgrid,
    Nat.max_eq_right hrows]

theorem readCell_text {cell : CellAddress} (hsheet : SheetName.Quotable cell.sheet)
    (hrow : Grid.HasRow cell.row) (hcol : Grid.HasCol cell.col) (sheet : String) :
    readCell cell.textChars sheet = .ok cell := by
  have hbody : Plain (Grid.columnLetters cell.col ++ Nat.toDigits 10 cell.row) :=
    (Plain.columnLetters hcol).append (.toDigits _)
  have hbounds : cell.checkBounds = .ok () :=
    CellAddress.checkBounds_eq_ok.mpr ⟨hsheet.ne_empty, hrow, hcol⟩
  have hsplit := SheetName.splitChars_beforeReference hsheet hbody
  unfold readCell CellAddress.textChars
  rw [List.append_assoc, bind_eq_ok]
  refine ⟨_, mapError_eq_ok.mpr hsplit, ?_⟩
  simp only [readCoord?_text hrow hcol]
  exact bind_eq_ok.mpr ⟨(), hbounds, rfl⟩

/-- What stands behind the sheet's name decides the area, on whatever sheet the reader is. -/
theorem readArea_of_corners {cs : List Char}
    (hsplit : SheetName.splitCornersChars cs = .ok (some name, body))
    (hname : SheetName.Quotable name) (hcorners : readCorners body = .ok corners) :
    readArea cs sheet = .ok (corners.on name) := by
  have hne : name.isEmpty = false := by simp [hname.ne_empty]
  unfold readArea
  simp only [bind_eq_ok, mapError_eq_ok, unless_eq_ok, pure_eq_ok]
  refine ⟨_, hsplit, ?_, corners, hcorners, rfl⟩
  simp [hne]

theorem readArea_single (hname : SheetName.Quotable name) (hbody : Plain body)
    (hcoord : readCoord? body = some coord) :
    readArea (SheetName.beforeReference name ++ body) sheet =
      .ok (Corners.on ⟨coord, coord, .cells⟩ name) := by
  refine readArea_of_corners (SheetName.splitCornersChars_single hname hbody) hname ?_
  have hcolon : splitFirst? ':' body = none :=
    splitFirst?_eq_none_iff.mpr (hbody.notMem (by decide))
  rw [readCorners, hcolon]
  simp only [hcoord, Option.map_some]

theorem readArea_pair (hname : SheetName.Quotable name) (hfirst : Plain first)
    (hsecond : Plain second) (hsides : readSides? first second = some corners) :
    readArea (SheetName.beforeReference name ++ (first ++ ':' :: second)) sheet =
      .ok (corners.on name) := by
  refine readArea_of_corners (SheetName.splitCornersChars_pair hname hfirst hsecond) hname ?_
  rw [readCorners, splitFirst?_append (hfirst.notMem (by decide))]
  simp only [hsides]

theorem readArea_text (hsheet : SheetName.Quotable area.sheet) (harea : area.WellFormed)
    (sheet : String) : readArea area.textChars sheet = .ok area := by
  have hleft := Plain.columnLetters harea.hasCol_left
  have hright := Plain.columnLetters harea.hasCol_right
  obtain ⟨name, top, left, bottom, right, kind⟩ := area
  cases kind with
  | columns =>
      obtain ⟨rfl, rfl⟩ := harea.wholeColumns rfl
      have hsides := readSides?_columns harea.hasCol_left harea.hasCol_right harea.cols
      simpa [Area.textChars, Corners.on] using readArea_pair hsheet hleft hright hsides
  | rows =>
      obtain ⟨rfl, rfl⟩ := harea.wholeRows rfl
      have hsides := readSides?_rows harea.hasRow_top harea.hasRow_bottom harea.rows
      simpa [Area.textChars, Corners.on] using
        readArea_pair hsheet (.toDigits top) (.toDigits bottom) hsides
  | cells =>
      simp only [Area.textChars]
      split
      · rename_i hsingle
        obtain ⟨rfl, rfl⟩ : top = bottom ∧ left = right := by
          simpa [Area.isSingleCell] using hsingle
        have hcoord := readCoord?_text harea.hasRow_top harea.hasCol_left
        simpa [CellAddress.textChars, Area.topLeft, Corners.on] using
          readArea_single hsheet (hleft.append (.toDigits top)) hcoord
      · have hsides := readSides?_cells harea.hasRow_top harea.hasCol_left harea.hasRow_bottom
          harea.hasCol_right harea.rows harea.cols
        simpa [Corners.on] using readArea_pair hsheet (hleft.append (.toDigits top))
          (hright.append (.toDigits bottom)) hsides

/-- Every cell and every area on a sheet with a quotable name is read back from its text, from
any other sheet, and every name of a sheet is quotable. -/
theorem ofText_text :
    (∀ name, SheetName.fault? name = none → SheetName.Quotable name) ∧
      ∀ sheet, SheetName.Quotable sheet → ∀ default : String,
        (∀ cell : CellAddress, cell.sheet = sheet → Grid.HasRow cell.row → Grid.HasCol cell.col →
          CellAddress.ofText cell.text default = .ok cell) ∧
        ∀ area : Area, area.sheet = sheet → area.WellFormed →
          Area.ofText area.text default = .ok area := by
  refine ⟨fun name => SheetName.quotable_of_fault?, fun sheet hsheet default => ⟨?_, ?_⟩⟩
  · rintro cell rfl hrow hcol
    rw [CellAddress.ofText, CellAddress.text, String.toList_ofList]
    exact readCell_text hsheet hrow hcol default
  · rintro area rfl harea
    rw [Area.ofText, Area.text, String.toList_ofList]
    exact readArea_text hsheet harea default

/-- A name of blanks and marks, another that is a reference itself. -/
theorem ofText_text_of_marks :
    let cell : CellAddress := ⟨" 'R1C1'!", 1048576, 16384⟩
    let area : Area := Area.wholeColumns "A1" 2 28
    CellAddress.ofText cell.text "Sheet1" = .ok cell ∧
      Area.ofText area.text "" = .ok area := by
  have hmarks : SheetName.Quotable " 'R1C1'!" := ofText_text.1 _ (by decide)
  have hcell : SheetName.Quotable "A1" := ofText_text.1 _ (by decide)
  refine ⟨(ofText_text.2 _ hmarks _).1 _ rfl (by decide) (by decide),
    (ofText_text.2 _ hcell _).2 _ rfl ?_⟩
  exact {
    top := by decide
    rows := by decide
    left := by decide
    cols := by decide
    bottom_le := by decide
    right_le := by decide
    wholeColumns := fun _ => ⟨by decide, by decide⟩
    wholeRows := fun h => by cases h }

end Reference

end Spreadsheet
