-- SUMMARY: What is read of the parts of a reference, and which references are refused.
import Spreadsheet.Proofs.Parts

/-!
# Tokens of references

The scanner and the reader of references were made apart. Of what the scanner takes for a reference,
the reader gives exactly what the parts denote, or it refuses the reference, for one of three
reasons: the second corner names another sheet than the first, the name of the sheet has a colon in
it, or a row stands behind two marks.
-/

namespace Spreadsheet.Formula

open Text

variable {cs rest : List Char} {mark : Bool} {c : Char}

/-! ## Blanks around a reference -/

namespace Corner

variable {corner : Corner}

theorem mark_or_isWordChar (hc : c ∈ corner.chars) : c = '$' ∨ isWordChar c := by
  obtain hc | hc | hc := of_mem_chars hc
  · exact .inl hc
  · exact .inr (isWordChar_of_isAlphanum (by simp [Char.isAlphanum, hc]))
  · exact .inr (isWordChar_of_isAlphanum (by simp [Char.isAlphanum, hc]))

theorem isBlank_of_mem_chars (hc : c ∈ corner.chars) : isBlank c = false := by
  obtain rfl | hc := mark_or_isWordChar hc
  · decide
  · exact isBlank_of_isWordChar hc

/-- Text that ends with a corner is not trimmed unless it starts with a blank. -/
theorem trimChars_append (corner : Corner)
    (hfirst : ∀ c ∈ (cs ++ corner.chars).head?, isBlank c = false) :
    trimChars (cs ++ corner.chars) = cs ++ corner.chars :=
  Text.trimChars_append corner.chars_ne_nil (fun _ hc => isBlank_of_mem_chars hc) hfirst

theorem trimChars_chars (corner : Corner) : trimChars corner.chars = corner.chars :=
  @trimChars_append [] corner fun _ hc => isBlank_of_mem_chars (List.mem_of_head? hc)

end Corner

namespace Qualifier

variable {P : Char → Prop}

/-- A sheet starts with an apostrophe or with a character of a word. -/
theorem of_mem_head? (hquote : P '\'') (hword : ∀ c, isWordChar c → P c)
    (qualifier : Option Qualifier) (hrest : ∀ c ∈ rest.head?, P c) :
    ∀ c ∈ (charsOf qualifier ++ rest).head?, P c := by
  match qualifier with
  | none => exact hrest
  | some (.word name hne hname) =>
      rw [charsOf, chars, List.append_assoc]
      exact of_mem_head?_append hne fun c hc => hword c (hname c hc)
  | some (.quoted name hne) =>
      rintro c ⟨⟩
      exact hquote

end Qualifier

namespace Parts

open Qualifier (charsOf)

variable {P : Char → Prop}

/-- A reference starts with its sheet, or with the mark, a letter or a digit of its corner. -/
theorem of_mem_head? (hquote : P '\'') (hmark : P '$') (hword : ∀ c, isWordChar c → P c)
    (parts : Parts) : ∀ c ∈ parts.chars.head?, P c := by
  have hcorner (corner : Corner) (rest : List Char) : ∀ c ∈ (corner.chars ++ rest).head?, P c := by
    refine of_mem_head?_append corner.chars_ne_nil fun c hc => ?_
    obtain rfl | hc := Corner.mark_or_isWordChar hc
    · exact hmark
    · exact hword c hc
  cases parts with
  | single qualifier corner isCell =>
      have h := hcorner corner []
      rw [List.append_nil] at h
      exact Qualifier.of_mem_head? hquote hword qualifier h
  | pair qualifier first again second sameSide qualified =>
      exact Qualifier.of_mem_head? hquote hword qualifier (hcorner first _)

/-- A reference ends with a letter or a digit. -/
theorem exists_last (parts : Parts) : ∃ front c, parts.chars = front ++ [c] ∧ c.isAlphanum := by
  cases parts with
  | single qualifier corner isCell =>
      obtain ⟨front, c, hchars, hc⟩ := corner.exists_last
      refine ⟨charsOf qualifier ++ front, c, ?_, hc⟩
      rw [chars, hchars, List.append_assoc]
  | pair qualifier first again second sameSide qualified =>
      obtain ⟨front, c, hchars, hc⟩ := second.exists_last
      refine ⟨charsOf qualifier ++ (first.chars ++ ':' :: (charsOf again ++ front)), c, ?_, hc⟩
      simp [chars, hchars]

/-- References have no blanks around them. -/
theorem trimChars_chars (parts : Parts) : trimChars parts.chars = parts.chars := by
  refine trimChars_eq_self (parts.of_mem_head? (by decide) (by decide)
    fun c hc => isBlank_of_isWordChar hc) fun c hc => ?_
  obtain ⟨front, d, hchars, hd⟩ := parts.exists_last
  rw [hchars, List.getLast?_concat] at hc
  cases hc
  exact isBlank_of_isWordChar (isWordChar_of_isAlphanum hd)

end Parts

/-! ## Corners -/

open Corner (markChars)

theorem takeMark_append (h : mark = false → rest.head? ≠ some '$') :
    Coord.takeMark (markChars mark ++ rest) = (mark, rest) := by
  cases mark with
  | true => rfl
  | false =>
      rw [markChars, if_neg Bool.false_ne_true, List.nil_append]
      unfold Coord.takeMark
      split
      · exact absurd rfl (h rfl)
      · rfl

theorem dropWhile_append {p : Char → Bool} (hcs : ∀ c ∈ cs, p c)
    (hrest : ∀ c ∈ rest.head?, p c = false) : (cs ++ rest).dropWhile p = rest := by
  rw [List.dropWhile_append_of_pos hcs]
  cases rest with
  | nil => rfl
  | cons c rest => exact List.dropWhile_cons_of_neg (by simp [hrest c rfl])

namespace Corner

/-- A cell is read with its marks. -/
theorem ofChars_chars {corner : Corner} (hcell : corner.side = .cell) :
    Coord.ofChars corner.chars = .ok corner.first := by
  cases corner with
  | column mark letters => cases hcell
  | row marks digits => cases hcell
  | cell colMark letters rowMark digits =>
      have hne : (chars (.cell colMark letters rowMark digits)).isEmpty = false :=
        List.isEmpty_eq_false_iff.mpr (chars_ne_nil _)
      have hmark₁ : Coord.takeMark (chars (.cell colMark letters rowMark digits)) =
          (colMark, letters.chars ++ (markChars rowMark ++ digits.chars)) := by
        rw [chars, List.append_assoc]
        exact takeMark_append fun _ => head?_ne_mark (of_mem_head?_append letters.ne_nil
          fun c hc => ne_mark_of_isAlpha (letters.isAlpha c hc))
      have hend : ∀ c ∈ (markChars rowMark ++ digits.chars).head?, c.isAlpha = false := by
        cases rowMark with
        | true =>
            rintro c ⟨⟩
            decide
        | false =>
            exact fun c hc => not_isAlpha_of_isDigit (digits.isDigit c (List.mem_of_head? hc))
      have hmark₂ : Coord.takeMark (markChars rowMark ++ digits.chars) = (rowMark, digits.chars) :=
        takeMark_append fun _ => head?_ne_mark fun c hc =>
          ne_mark_of_isDigit (digits.isDigit c (List.mem_of_head? hc))
      have hletters : letters.chars.isEmpty = false := List.isEmpty_eq_false_iff.mpr letters.ne_nil
      unfold Coord.ofChars
      simp only [trimChars_chars, hne, hmark₁, takeWhile_append letters.isAlpha hend,
        dropWhile_append letters.isAlpha hend, hmark₂, hletters, letters.reads, digits.reads]
      rfl

/-- Text behind a mark is no absolute row and column number, nor are letters or digits alone. -/
theorem readAbsoluteR1C1?_markChars (mark : Bool)
    (hcs : (∀ c ∈ cs, c.isAlpha) ∨ ∃ c ∈ cs.head?, c.isDigit) :
    Reference.readAbsoluteR1C1? (markChars mark ++ cs) = none := by
  cases mark with
  | true => rfl
  | false => exact Reference.readAbsoluteR1C1?_eq_none hcs

theorem takeMark_column (mark : Bool) (letters : ColumnLetters) :
    Coord.takeMark (chars (.column mark letters)) = (mark, letters.chars) :=
  takeMark_append fun _ => head?_ne_mark fun c hc =>
    ne_mark_of_isAlpha (letters.isAlpha c (List.mem_of_head? hc))

/-- The first mark of a row is taken off. -/
theorem takeMark_row (marks : Fin 3) (digits : RowDigits) :
    Coord.takeMark (chars (.row marks digits)) =
      (marks != 0, List.replicate (marks - 1 : Nat) '$' ++ digits.chars) := by
  have hunmarked : digits.chars.head? ≠ some '$' := head?_ne_mark fun c hc =>
    ne_mark_of_isDigit (digits.isDigit c (List.mem_of_head? hc))
  obtain rfl | rfl | rfl := marks_cases marks
  · exact @takeMark_append digits.chars false fun _ => hunmarked
  · rfl
  · rfl

theorem head_row (n : Nat) (digits : RowDigits) :
    ∀ c ∈ (List.replicate n '$' ++ digits.chars).head?, c.isAlpha = false := by
  cases n with
  | zero => exact fun c hc => not_isAlpha_of_isDigit (digits.isDigit c (List.mem_of_head? hc))
  | succ n =>
      rintro c ⟨⟩
      decide

/-- A column or a row alone is no cell. -/
theorem readCoord?_chars {corner : Corner} (hside : corner.side ≠ .cell) :
    Reference.readCoord? corner.chars = none := by
  have hne : corner.chars.isEmpty = false := List.isEmpty_eq_false_iff.mpr corner.chars_ne_nil
  cases corner with
  | cell colMark letters rowMark digits => exact absurd rfl hside
  | column mark letters =>
      have hletters : letters.chars.isEmpty = false := List.isEmpty_eq_false_iff.mpr letters.ne_nil
      have hcoord : ∃ fault, Coord.ofChars (chars (.column mark letters)) = .error fault := by
        have htake := @takeWhile_append letters.chars [] _ letters.isAlpha nofun
        have hdrop := @dropWhile_append letters.chars [] _ letters.isAlpha nofun
        rw [List.append_nil] at htake hdrop
        unfold Coord.ofChars
        simp only [trimChars_chars, hne, takeMark_column, htake, hdrop, hletters, letters.reads]
        exact ⟨_, rfl⟩
      obtain ⟨fault, hfault⟩ := hcoord
      rw [Reference.readCoord?, hfault]
      dsimp only
      rw [trimChars_chars]
      exact readAbsoluteR1C1?_markChars mark (.inl letters.isAlpha)
  | row marks digits =>
      have hcoord : ∃ fault, Coord.ofChars (chars (.row marks digits)) = .error fault := by
        have htake : (List.replicate (marks - 1 : Nat) '$' ++ digits.chars).takeWhile
            Char.isAlpha = [] :=
          @takeWhile_append [] _ _ (List.forall_mem_nil _) (head_row _ digits)
        unfold Coord.ofChars
        simp only [trimChars_chars, hne, takeMark_row, htake]
        exact ⟨_, rfl⟩
      obtain ⟨fault, hfault⟩ := hcoord
      rw [Reference.readCoord?, hfault]
      dsimp only
      rw [trimChars_chars]
      obtain rfl | rfl | rfl := marks_cases marks
      · obtain ⟨c, cs, hcs⟩ := List.exists_cons_of_ne_nil digits.ne_nil
        have hc := digits.isDigit c (hcs ▸ List.mem_cons_self)
        exact readAbsoluteR1C1?_markChars false (.inr ⟨c, hcs ▸ rfl, hc⟩)
      · rfl
      · rfl

theorem readColumn?_column (mark : Bool) (letters : ColumnLetters) :
    Reference.readColumn? (chars (.column mark letters)) = some (letters.col, mark) := by
  rw [Reference.readColumn?, trimChars_chars, takeMark_column]
  simp only [letters.reads]

theorem readColumn?_row (marks : Fin 3) (digits : RowDigits) :
    Reference.readColumn? (chars (.row marks digits)) = none := by
  rw [Reference.readColumn?, trimChars_chars, takeMark_row]
  dsimp only
  split
  · rename_i col hcol
    -- what a row starts with, behind its mark, is no letter
    let letters : ColumnLetters := ⟨_, col, hcol⟩
    obtain ⟨c, cs, hcs⟩ := List.exists_cons_of_ne_nil letters.ne_nil
    have halpha := letters.isAlpha c (hcs ▸ List.mem_cons_self)
    have hhead := head_row _ digits c (congrArg List.head? hcs)
    rw [hhead] at halpha
    cases halpha
  · rfl

/-- A row is read unless it stands behind two marks. -/
theorem readRow?_row (marks : Fin 3) (digits : RowDigits) :
    Reference.readRow? (chars (.row marks digits)) =
      if marks = 2 then none else some (digits.row, marks != 0) := by
  rw [Reference.readRow?, trimChars_chars, takeMark_row]
  obtain rfl | rfl | rfl := marks_cases marks
  · simp [digits.reads]
  · simp [digits.reads]
  · simp [Grid.readRow?, readNat?]

/-- How many marks stand in front of a row number. -/
def rowMarks : Corner → Nat
  | .row marks _ => marks
  | .cell .. | .column .. => 0

/-- Corners of one sort are read as what they are the corners of, unless a row has two marks. -/
theorem readSides?_chars {first second : Corner} (hside : second.side = first.side) :
    Reference.readSides? first.chars second.chars =
      if first.rowMarks ≤ 1 ∧ second.rowMarks ≤ 1 then some (Parts.cornersOf first second)
      else none := by
  cases first with
  | cell colMark₁ letters₁ rowMark₁ digits₁ =>
      cases second with
      | column _ _ | row _ _ => cases hside
      | cell colMark₂ letters₂ rowMark₂ digits₂ =>
          unfold Reference.readSides? Reference.readCoord?
          rw [ofChars_chars rfl, ofChars_chars rfl]
          rfl
  | column mark₁ letters₁ =>
      cases second with
      | cell _ _ _ _ | row _ _ => cases hside
      | column mark₂ letters₂ =>
          unfold Reference.readSides?
          rw [@readCoord?_chars (.column mark₁ letters₁) (by simp [side]), readColumn?_column,
            readColumn?_column]
          rfl
  | row marks₁ digits₁ =>
      cases second with
      | cell _ _ _ _ | column _ _ => cases hside
      | row marks₂ digits₂ =>
          unfold Reference.readSides?
          have hfirst := @readCoord?_chars (.row marks₁ digits₁) (by simp [side])
          rw [hfirst, readColumn?_row, readRow?_row, readRow?_row]
          obtain rfl | rfl | rfl := marks_cases marks₁ <;>
            obtain rfl | rfl | rfl := marks_cases marks₂ <;> rfl

end Corner

/-! ## Sheets -/

namespace Qualifier

open SheetName

variable {name : List Char} {taken : List Char × List Char}

/-- A sheet is taken off what it stands in front of. -/
theorem splitChars_charsOf (qualifier : Option Qualifier) {body : List Char} (hne : body ≠ [])
    (hblank : ∀ c ∈ body, isBlank c = false) (hbang : '!' ∉ body) (hquote : '\'' ∉ body) :
    splitChars (charsOf qualifier ++ body) = .ok (qualifier.map Qualifier.sheet, body) := by
  have htrim : trimChars (charsOf qualifier ++ body) = charsOf qualifier ++ body :=
    trimChars_append hne hblank (of_mem_head? (by decide) (fun c hc => isBlank_of_isWordChar hc)
      qualifier fun c hc => hblank c (List.mem_of_head? hc))
  unfold splitChars
  rw [htrim]
  match qualifier with
  | none =>
      have hlast : splitLast? '!' body = none := splitLast?_eq_none_iff.mpr hbang
      rw [charsOf, List.nil_append]
      dsimp only
      split
      · exact absurd List.mem_cons_self hquote
      · simp only [hlast]
        rfl
  | some (.word name hne hword) =>
      have hlast : splitLast? '!' (name ++ '!' :: body) = some (name, body) :=
        splitLast?_append hbang name
      obtain ⟨c, cs, rfl⟩ := List.exists_cons_of_ne_nil hne
      -- a bare name does not start with an apostrophe, so it is cut at the last `!`
      have hc : c ≠ '\'' := by
        rintro rfl
        have hquote := hword '\'' List.mem_cons_self
        rw [isWordChar_quote] at hquote
        cases hquote
      simp only [charsOf, chars, List.append_assoc, List.singleton_append]
      rw [List.cons_append] at hlast ⊢
      split
      · rename_i h
        exact absurd (List.cons.inj h).1 hc
      · simp only [hlast]
        rfl
  | some (.quoted name hne) =>
      have htake := @takeQuoted_double ('!' :: body) name (by simp)
      obtain ⟨c, cs, rfl⟩ := List.exists_cons_of_ne_nil hne
      have htext : charsOf (some (.quoted (c :: cs) hne)) ++ body =
          '\'' :: (double (c :: cs) ++ '\'' :: '!' :: body) := by
        simp [charsOf, chars]
      rw [htext]
      simp only [htake]
      rfl

theorem splitChars_corner (qualifier : Option Qualifier) (corner : Corner) :
    splitChars (charsOf qualifier ++ corner.chars) =
      .ok (qualifier.map Qualifier.sheet, corner.chars) :=
  splitChars_charsOf qualifier corner.chars_ne_nil (fun _ hc => Corner.isBlank_of_mem_chars hc)
    (Corner.notMem_chars (by decide) (by decide) (by decide))
    (Corner.notMem_chars (by decide) (by decide) (by decide))

/-- What has been taken is taken from longer text too, unless an apostrophe follows. -/
theorem takeQuoted_append (h : takeQuoted cs = some taken) (hrest : rest.head? ≠ some '\'') :
    takeQuoted (cs ++ rest) = some (taken.1, taken.2 ++ rest) := by
  fun_induction takeQuoted cs generalizing taken with
  | case1 => cases h
  | case2 cs ih =>
      obtain ⟨taken, htaken, rfl⟩ := Option.map_eq_some_iff.mp h
      rw [List.cons_append, List.cons_append, takeQuoted, ih htaken]
      rfl
  | case3 cs hcs =>
      cases h
      rw [List.cons_append, takeQuoted]
      intro ds hds
      cases cs with
      | nil =>
          rw [List.nil_append] at hds
          exact hrest (hds ▸ rfl)
      | cons c cs =>
          obtain ⟨rfl, -⟩ := List.cons.inj hds
          exact hcs cs rfl
  | case4 c cs _ hc ih =>
      obtain ⟨taken, htaken, rfl⟩ := Option.map_eq_some_iff.mp h
      rw [List.cons_append, takeQuoted, ih htaken]
      · rfl
      · exact fun _ h _ => hc h
      · exact hc

/-- A name without its closing apostrophe does not end. -/
theorem takeQuoted_open (name : List Char) : takeQuoted (double name) = none := by
  induction name with
  | nil => rfl
  | cons c cs ih =>
      unfold double
      split
      · rw [takeQuoted, ih]
        rfl
      · rename_i hc
        rw [takeQuoted, ih]
        · rfl
        · exact fun _ h _ => hc h
        · exact hc

theorem double_append (cs ds : List Char) : double (cs ++ ds) = double cs ++ double ds := by
  induction cs with
  | nil => rfl
  | cons c cs ih =>
      rw [List.cons_append, double, double, ih]
      split <;> rfl

theorem exists_trimRight (cs : List Char) :
    ∃ blanks, cs = trimRight cs ++ blanks ∧ ∀ c ∈ blanks, isBlank c := by
  refine ⟨(cs.reverse.takeWhile isBlank).reverse, ?_, fun c hc => ?_⟩
  · rw [trimRight, ← List.reverse_append, List.takeWhile_append_dropWhile, List.reverse_reverse]
  · exact List.all_eq_true.mp List.all_takeWhile c (List.mem_reverse.mp hc)

/-- A name cut inside its apostrophes is refused. -/
theorem splitChars_open (name : List Char) :
    ∃ fault, splitChars ('\'' :: double name) = .error fault := by
  obtain ⟨blanks, hcs, hblanks⟩ := exists_trimRight ('\'' :: double name)
  have hquote : isBlank '\'' = false := by decide
  have htrim : trimChars ('\'' :: double name) = trimRight ('\'' :: double name) := by
    rw [trimChars, trimLeft, List.dropWhile_cons_of_neg (by simp [hquote])]
  unfold splitChars
  rw [htrim]
  cases hright : trimRight ('\'' :: double name) with
  | nil =>
      rw [hright, List.nil_append] at hcs
      have hblank := hblanks '\'' (hcs ▸ List.mem_cons_self)
      rw [hquote] at hblank
      cases hblank
  | cons c cs =>
      rw [hright, List.cons_append] at hcs
      obtain ⟨rfl, hname⟩ := List.cons.inj hcs
      have hnone : takeQuoted cs = none := by
        refine Option.eq_none_iff_forall_ne_some.mpr fun taken htaken => ?_
        have hopen : takeQuoted (cs ++ blanks) = _ := takeQuoted_append htaken fun hhead => by
          have hblank := hblanks '\'' (List.mem_of_head? hhead)
          rw [hquote] at hblank
          cases hblank
        rw [← hname, takeQuoted_open] at hopen
        cases hopen
      simp only [hnone]
      exact ⟨_, rfl⟩

end Qualifier

/-! ## References -/

namespace Parts

open Qualifier (charsOf splitChars_corner)

variable {parts : Parts} {token : Token} {sheet : Option String} {e : Expr}
  {qualifier again : Option Qualifier} {first second corner : Corner}

/-- The corners without their sheets. -/
def body : Parts → List Char
  | .single _ corner _ => corner.chars
  | .pair _ first _ second .. => first.chars ++ ':' :: second.chars

def corners : Parts → List Corner
  | .single _ corner _ => [corner]
  | .pair _ first _ second .. => [first, second]

/-- The second corner names no sheet or the one that the first corner names, in the same
spelling. -/
def SameSheets : Parts → Prop
  | .single .. => True
  | .pair qualifier _ again .. =>
    ∀ repeated ∈ again, qualifier.map Qualifier.sheet = some repeated.sheet

/-- No colon is in the name of the sheet. -/
def NoColon (parts : Parts) : Prop := ∀ qualifier ∈ parts.qualifier, ':' ∉ qualifier.name

/-- No row stands behind two marks. -/
def OneMark (parts : Parts) : Prop := ∀ corner ∈ parts.corners, corner.rowMarks ≤ 1

/-- What a reader of references takes. -/
structure Readable (parts : Parts) : Prop where
  sameSheets : parts.SameSheets
  noColon : parts.NoColon
  oneMark : parts.OneMark

theorem notMem_chars_corner (corner : Corner) : ':' ∉ corner.chars :=
  Corner.notMem_chars (by decide) (by decide) (by decide)

theorem notMem_charsOf (h : ∀ q ∈ qualifier, ':' ∉ q.name) : ':' ∉ charsOf qualifier := by
  intro hmem
  match qualifier with
  | none => cases hmem
  | some (.word name hne hword) =>
      obtain hmem | hmem := List.mem_append.mp hmem
      · exact h _ rfl hmem
      · exact absurd (List.mem_singleton.mp hmem) (by decide)
  | some (.quoted name hne) =>
      obtain hmem | hmem := List.mem_cons.mp hmem
      · exact absurd hmem (by decide)
      obtain hmem | hmem := List.mem_append.mp hmem
      · exact h _ rfl (SheetName.mem_of_mem_double hmem)
      · simp at hmem

/-- Where a colon stands in the first sheet, the text is cut there, before the name ends. -/
theorem splitCornersChars_colon (h : ¬ parts.NoColon) :
    ∃ fault, SheetName.splitCornersChars parts.chars = .error fault := by
  obtain ⟨q, hq, hcolon⟩ : ∃ q ∈ parts.qualifier, ':' ∈ q.name := by
    simpa [NoColon] using h
  obtain ⟨rest, hrest⟩ : ∃ rest, parts.chars = q.chars ++ rest := by
    cases parts <;> cases hq <;> exact ⟨_, rfl⟩
  cases q with
  | word name hne hword =>
      exact absurd (hword ':' hcolon) (by decide)
  | quoted name hne =>
      cases hsplit : splitFirst? ':' name with
      | none => exact absurd hcolon (splitFirst?_eq_none_iff.mp hsplit)
      | some halves =>
          obtain ⟨front, back⟩ := halves
          obtain ⟨rfl, hfront⟩ := splitFirst?_eq_some hsplit
          have hchars : parts.chars = ('\'' :: SheetName.double front) ++
              ':' :: (SheetName.double back ++ '\'' :: '!' :: rest) := by
            rw [hrest, Qualifier.chars, Qualifier.double_append]
            simp [SheetName.double]
          have hnotMem : ':' ∉ '\'' :: SheetName.double front := by
            intro hmem
            obtain hmem | hmem := List.mem_cons.mp hmem
            · exact absurd hmem (by decide)
            · exact hfront (SheetName.mem_of_mem_double hmem)
          obtain ⟨fault, hfault⟩ := Qualifier.splitChars_open front
          unfold SheetName.splitCornersChars
          simp only [trimChars_chars]
          rw [hchars]
          simp only [splitFirst?_append hnotMem, hfault]
          exact ⟨fault, rfl⟩

/-- Taking the sheets off leaves the corners, if no colon is in the way and the second corner does
not name another sheet. -/
theorem splitCornersChars_chars :
    SheetName.splitCornersChars parts.chars = .ok (sheet, cs) ↔
      parts.NoColon ∧ parts.SameSheets ∧ parts.qualifier.map Qualifier.sheet = sheet ∧
        parts.body = cs := by
  by_cases hcolon : parts.NoColon
  · unfold SheetName.splitCornersChars
    simp only [trimChars_chars]
    cases parts with
    | single qualifier corner isCell =>
        have hnotMem : ':' ∉ chars (.single qualifier corner isCell) :=
          List.not_mem_append (notMem_charsOf hcolon) (notMem_chars_corner corner)
        simp only [splitFirst?_eq_none_iff.mpr hnotMem]
        rw [chars, splitChars_corner]
        simp [hcolon, SameSheets, Parts.qualifier, body]
    | pair qualifier first again second sameSide qualified =>
        have hnotMem : ':' ∉ charsOf qualifier ++ first.chars :=
          List.not_mem_append (notMem_charsOf hcolon) (notMem_chars_corner first)
        have hsplit : splitFirst? ':' (chars (.pair qualifier first again second sameSide
            qualified)) = some (charsOf qualifier ++ first.chars,
              charsOf again ++ second.chars) := by
          rw [chars, ← List.append_assoc]
          exact splitFirst?_append hnotMem _
        simp only [hsplit, splitChars_corner, bind_eq_ok, unless_eq_ok, pure_eq_ok, Except.ok.injEq,
          exists_eq_left']
        cases again with
        | none => simp [hcolon, SameSheets, Parts.qualifier, body]
        | some again => simp [hcolon, SameSheets, Parts.qualifier, body]
  · obtain ⟨fault, hfault⟩ := splitCornersChars_colon hcolon
    rw [hfault]
    simp [hcolon]

theorem readCorners_chars {corners : Corners} (sameSide : second.side = first.side) :
    Reference.readCorners (first.chars ++ ':' :: second.chars) = .ok corners ↔
      (first.rowMarks ≤ 1 ∧ second.rowMarks ≤ 1) ∧ cornersOf first second = corners := by
  rw [Reference.readCorners, splitFirst?_append (notMem_chars_corner first)]
  simp only [Corner.readSides?_chars sameSide]
  by_cases hone : first.rowMarks ≤ 1 ∧ second.rowMarks ≤ 1
  · simp [hone]
  · simp [hone]

/-- A cell has no row behind two marks. -/
theorem oneMark_single (isCell : corner.side = .cell) :
    OneMark (.single qualifier corner isCell) := by
  cases corner with
  | cell colMark letters rowMark digits => exact List.forall_mem_singleton.mpr (Nat.zero_le 1)
  | column mark letters => cases isCell
  | row marks digits => cases isCell

theorem mem_body_pair (sameSide : second.side = first.side)
    (qualified : again.isSome → qualifier.isSome) :
    ':' ∈ body (.pair qualifier first again second sameSide qualified) :=
  List.mem_append_right _ List.mem_cons_self

/-- A reader gives what the parts denote, and it refuses no others than those that are not
readable. -/
theorem referenceOf_chars (htext : token.text = parts.text) :
    Grammar.referenceOf token = .ok e ↔ parts.Readable ∧ parts.expr = e := by
  have hchars : token.text.toList = parts.chars := by
    rw [htext, text, String.toList_ofList]
  unfold Grammar.referenceOf
  simp only [mapError_eq_ok, bind_eq_ok, hchars, Prod.exists, splitCornersChars_chars]
  constructor
  · rintro ⟨sheet, cs, ⟨hcolon, hsame, rfl, rfl⟩, h⟩
    cases parts with
    | single qualifier corner isCell =>
        simp only [body, if_neg (notMem_chars_corner corner), Corner.ofChars_chars isCell] at h
        exact ⟨⟨hsame, hcolon, oneMark_single isCell⟩, Except.ok.inj h⟩
    | pair qualifier first again second sameSide qualified =>
        rw [if_pos (mem_body_pair sameSide qualified)] at h
        simp only [body, bind_eq_ok, readCorners_chars sameSide, pure_eq_ok] at h
        obtain ⟨corners, ⟨⟨hfirst, hsecond⟩, rfl⟩, he⟩ := h
        exact ⟨⟨hsame, hcolon, by simp [OneMark, Parts.corners, hfirst, hsecond]⟩, he⟩
  · rintro ⟨⟨hsame, hcolon, hone⟩, rfl⟩
    refine ⟨_, _, ⟨hcolon, hsame, rfl, rfl⟩, ?_⟩
    cases parts with
    | single qualifier corner isCell =>
        simp only [body, if_neg (notMem_chars_corner corner), Corner.ofChars_chars isCell]
        rfl
    | pair qualifier first again second sameSide qualified =>
        rw [if_pos (mem_body_pair sameSide qualified)]
        simp only [body, bind_eq_ok, readCorners_chars sameSide, pure_eq_ok]
        refine ⟨_, ⟨?_, rfl⟩, rfl⟩
        simpa [OneMark, Parts.corners] using hone

theorem kind_eq (parts : Parts) : parts.kind = .reference ∨ parts.kind = .sheetReference := by
  unfold kind
  split
  · exact .inr rfl
  · exact .inl rfl

end Parts

/-! ## Tokens -/

/-- The characters that a reference can start with. -/
def StartsReference (c : Char) : Prop :=
  c = '\'' ∨ c = '$' ∨ c = '.' ∨ c.isDigit ∨ startsWord c

namespace Token

variable {n position : Nat} {kind : TokenKind} {tokens : List Token} {token : Token}

theorem not_isBlank_of_startsReference (h : StartsReference c) : isBlank c = false := by
  have hblanks : ∀ n ∈ blanks, ¬ StartsReference (Char.ofNat n) := by
    unfold StartsReference
    decide +kernel
  refine Bool.eq_false_iff.mpr fun hblank => hblanks _ (isBlank_iff.mp hblank) ?_
  rwa [Char.ofNat_toNat]

/-- Where text starts as a reference can, a reference at its front is the first token. -/
theorem lexeme_of_reference? {found : TokenKind × Nat} (hc : StartsReference c)
    (h : reference? (c :: cs) = some found) : lexeme (c :: cs) = .ok found := by
  have hblank := not_isBlank_of_startsReference hc
  unfold lexeme
  dsimp only
  rw [if_neg (by simp [hblank])]
  obtain rfl | hc := hc
  · simp only [h]
  split
  case h_3 => simp only [h]
  case h_21 =>
    split
    · simp only [h]
    · split
      · simp only [h]
      · rename_i hdigit hword
        simp only [Bool.or_eq_true, beq_iff_eq] at hdigit hword
        obtain hc | hc | hc | hc := hc
        · exact absurd (.inr hc) hword
        · exact absurd (.inr hc) hdigit
        · exact absurd (.inl hc) hdigit
        · exact absurd (.inl hc) hword
  all_goals exact absurd hc (by decide)

theorem lexeme_parts {parts : Parts} (hstart : ∀ c ∈ parts.chars.head?, StartsReference c) :
    lexeme parts.chars = .ok (parts.kind, parts.chars.length) := by
  have hfound := parts.reference?_chars
  cases hchars : parts.chars with
  | nil =>
      obtain ⟨front, c, hlast, -⟩ := parts.exists_last
      simp [hchars] at hlast
  | cons c cs =>
      rw [hchars] at hfound
      exact lexeme_of_reference? (hstart c (hchars ▸ rfl)) hfound

/-- Text made of parts is one token, where it starts as a reference can. -/
theorem ofText_parts {parts : Parts} (hstart : ∀ c ∈ parts.chars.head?, StartsReference c) :
    ofText parts.text = .ok [⟨parts.kind, parts.text, 0⟩] := by
  have hlexeme := lexeme_parts hstart
  unfold ofText
  rw [Parts.text, String.toList_ofList]
  cases hchars : parts.chars with
  | nil =>
      rw [hchars] at hlexeme
      cases hlexeme
  | cons c cs =>
      rw [hchars] at hlexeme
      rw [ofCharsFrom]
      simp [hlexeme, ofCharsFrom, Except.map]

/-- A token of a reference is found by the scanner of references. -/
theorem reference?_of_lexeme (h : lexeme cs = .ok (kind, n))
    (hkind : kind = .reference ∨ kind = .sheetReference) : reference? cs = some (kind, n) := by
  have hother {kind' : TokenKind} {n' : Nat}
      (h : (.ok (kind', n') : Except (Nat × Cause) (TokenKind × Nat)) = .ok (kind, n))
      (hkind' : kind' ≠ .reference ∧ kind' ≠ .sheetReference) : reference? cs = some (kind, n) := by
    cases h
    exact (hkind.elim hkind'.1 hkind'.2).elim
  unfold lexeme at h
  split at h
  · cases h
  split at h
  · exact hother h (by decide)
  split at h
  case h_1 =>
    split at h
    · exact hother h (by decide)
    · cases h
  case h_2 =>
    split at h
    · exact hother h (by decide)
    · cases h
  case h_3 =>
    split at h
    · rename_i found hfound
      cases h
      exact hfound
    · cases h
  case h_19 =>
    split at h
    all_goals exact hother h (by decide)
  case h_20 =>
    split at h
    all_goals exact hother h (by decide)
  case h_21 =>
    split at h
    · split at h
      · rename_i found hfound
        cases h
        exact hfound
      · dsimp only at h
        split at h
        · cases h
        · exact hother h (by decide)
    split at h
    · split at h
      · rename_i found hfound
        cases h
        exact hfound
      · split at h
        · cases h
        · -- what is no reference is a name, a function or a boolean
          unfold nameKind at h
          dsimp only at h
          split at h
          · exact hother h (by decide)
          · cases h
          · split at h
            · exact hother h (by decide)
            · exact hother h (by decide)
    · cases h
  all_goals exact hother h (by decide)

theorem Tiles.lexeme_of_mem (h : Tiles position cs tokens) (hmem : token ∈ tokens) :
    ∃ chars rest, token.text = String.ofList chars ∧
      lexeme (chars ++ rest) = .ok (token.kind, chars.length) := by
  induction h with
  | nil => cases hmem
  | cons _ hlexeme _ ih =>
      obtain rfl | hmem := List.mem_cons.mp hmem
      · exact ⟨_, _, rfl, hlexeme⟩
      · exact ih hmem

theorem exists_parts {s : String} (h : ofText s = .ok tokens) (hmem : token ∈ tokens)
    (hkind : token.kind = .reference ∨ token.kind = .sheetReference) :
    ∃ parts : Parts, token.text = parts.text ∧ token.kind = parts.kind := by
  obtain ⟨tokens', htokens', htiles⟩ | ⟨m, -, -, hm, -, -⟩ := ofCharsFrom_tiles 0 s.toList
  · obtain rfl : tokens' = tokens := Except.ok.inj (htokens'.symm.trans h)
    obtain ⟨chars, rest, htext, hlexeme⟩ := htiles.lexeme_of_mem hmem
    obtain ⟨parts, rest', hchars, hlength, hparts⟩ :=
      Parts.exists_of_reference? (reference?_of_lexeme hlexeme hkind)
    obtain ⟨rfl, -⟩ := List.append_inj hchars hlength
    exact ⟨parts, htext, hparts⟩
  · cases hm.symm.trans h

/-- **What is scanned as a reference is read as scanned.** Each token of a reference has parts, and
it is of a sheet exactly if they are. The reader accepts the token if its second corner names no
other sheet than the first, no colon is in the name of the sheet and no row stands behind two marks,
and it refuses it otherwise. What it gives then is the sheet, the corners and the kind that the
parts denote. -/
theorem reference_read {s : String} (h : ofText s = .ok tokens) :
    ∀ token ∈ tokens, token.kind = .reference ∨ token.kind = .sheetReference →
      (∃ parts : Parts, token.text = parts.text ∧ token.kind = parts.kind) ∧
      ∀ parts : Parts, token.text = parts.text →
        ((∃ e, Grammar.referenceOf token = .ok e) ↔
          parts.SameSheets ∧ parts.NoColon ∧ parts.OneMark) ∧
        ∀ e, Grammar.referenceOf token = .ok e → e = parts.expr := by
  intro token hmem hkind
  refine ⟨exists_parts h hmem hkind, fun parts htext => ⟨?_, fun e he => ?_⟩⟩
  · constructor
    · rintro ⟨e, he⟩
      have hreadable := (Parts.referenceOf_chars htext |>.mp he).1
      exact ⟨hreadable.sameSheets, hreadable.noColon, hreadable.oneMark⟩
    · rintro ⟨hsame, hcolon, hone⟩
      exact ⟨_, Parts.referenceOf_chars htext |>.mpr ⟨⟨hsame, hcolon, hone⟩, rfl⟩⟩
  · exact (Parts.referenceOf_chars htext |>.mp he).2.symm

/-- `Sheet1!$C$3:Sheet1!a01`, with the later corner in front. -/
def repeatedSheet : Parts :=
  .pair (some .sheet1) (.cell true .upperC true .three) (some .sheet1)
    (.cell false .lowerA false .zeroOne) rfl fun _ => rfl

set_option maxRecDepth 4000 in
theorem reference_read_repeatedSheet :
    ofText "Sheet1!$C$3:Sheet1!a01" = .ok [⟨.sheetReference, "Sheet1!$C$3:Sheet1!a01", 0⟩] ∧
      Grammar.referenceOf ⟨.sheetReference, "Sheet1!$C$3:Sheet1!a01", 0⟩ =
        .ok (.area (some "Sheet1") ⟨⟨1, 1, true, true⟩, ⟨3, 3, false, false⟩, .cells⟩) := by
  have htokens : ofText repeatedSheet.text = .ok [⟨repeatedSheet.kind, repeatedSheet.text, 0⟩] :=
    ofText_parts (by
      rintro c ⟨⟩
      exact .inr (.inr (.inr (.inr (by decide)))))
  rw [show repeatedSheet.text = "Sheet1!$C$3:Sheet1!a01" by decide +kernel,
    show repeatedSheet.kind = .sheetReference from rfl] at htokens
  refine ⟨htokens, ?_⟩
  obtain ⟨-, hparts⟩ := reference_read htokens _ List.mem_cons_self (.inr rfl)
  obtain ⟨hreads, hexpr⟩ := hparts repeatedSheet (by decide +kernel)
  have hsame : repeatedSheet.SameSheets := by
    rintro repeated ⟨⟩
    rfl
  have hcolon : repeatedSheet.NoColon := by
    rintro qualifier ⟨⟩
    decide
  have hone : repeatedSheet.OneMark := by
    simp [Parts.OneMark, repeatedSheet, Parts.corners, Corner.rowMarks]
  obtain ⟨e, he⟩ := hreads.mpr ⟨hsame, hcolon, hone⟩
  rw [he, hexpr e he]
  decide +kernel

/-- `$$1:$$2`, two rows of which each stands behind two marks. -/
def doublyMarked : Parts :=
  .pair none (.row (Fin.last 2) .one) none (.row (Fin.last 2) .two) rfl nofun

/-- `'a:b'!A1`, a cell of a sheet with a colon in its name. -/
def colonInSheet : Parts :=
  .ofCell (some (.quoted ['a', ':', 'b'] (by decide))) .upperA .one

set_option maxRecDepth 4000 in
/-- Rows behind two marks are scanned as a reference, and so is a cell of a sheet with a colon in
its name. They name no two sheets, and both are refused. -/
theorem refused_references :
    (ofText doublyMarked.text = .ok [⟨.reference, doublyMarked.text, 0⟩] ∧
      doublyMarked.text = "$$1:$$2" ∧ doublyMarked.SameSheets ∧
      Grammar.referenceOf ⟨.reference, doublyMarked.text, 0⟩ =
        .error ⟨0, .reference (.unreadable "$$1:$$2")⟩) ∧
    ofText colonInSheet.text = .ok [⟨.sheetReference, colonInSheet.text, 0⟩] ∧
      colonInSheet.text = "'a:b'!A1" ∧ colonInSheet.SameSheets ∧
      Grammar.referenceOf ⟨.sheetReference, colonInSheet.text, 0⟩ =
        .error ⟨0, .reference (.unterminatedSheet "'a")⟩ := by
  have hrows : doublyMarked.text = "$$1:$$2" := by decide +kernel
  have hcell : colonInSheet.text = "'a:b'!A1" := by decide +kernel
  rw [hrows, hcell]
  have hsame : doublyMarked.SameSheets := by rintro _ ⟨⟩
  exact ⟨⟨by decide +kernel, rfl, hsame, by decide +kernel⟩, by decide +kernel, rfl, trivial, by decide +kernel⟩

end Token

end Spreadsheet.Formula
