-- SUMMARY: A defined name in a formula, and as the text that `INDIRECT` is given.
import Mathlib.Data.List.TakeWhile
import Spreadsheet.Proofs.Address

/-!
# Words that name areas

A defined name is a word that is scanned as one name and as nothing else, so a formula of that word
gives the area that the name stands for. `INDIRECT` tries to read its text as a reference first. A
word that can be a name is no reference in A1 style, but it may be one by absolute numbers, and then
the name is not looked up.
-/

namespace Spreadsheet

open Text

/-! ## Words that can be names -/

/-- The first character can start a name, the others can go on it, and the word is neither a cell in
A1 style nor a boolean. -/
structure DefinedName.Word (c : Char) (cs : List Char) : Prop where
  starts : startsWord c
  goesOn : ∀ d ∈ cs, isWordChar d
  noCell : Coord.isText (c :: cs) = false
  noTrue : equalIgnoringCase (String.ofList (c :: cs)) "TRUE" = false
  noFalse : equalIgnoringCase (String.ofList (c :: cs)) "FALSE" = false

theorem Text.startsWord_toLower (c : Char) : startsWord c.toLower = startsWord c :=
  eq_of_toLower (by decide) c

/-- A word has no blanks at its ends. -/
theorem Text.trimChars_of_startsWord {c : Char} {cs : List Char} (hstarts : startsWord c)
    (hgoesOn : ∀ d ∈ cs, isWordChar d) : trimChars (c :: cs) = c :: cs := by
  have hfirst : isBlank c = false := by
    simp only [startsWord, Bool.or_eq_true, beq_iff_eq] at hstarts
    obtain (hletter | rfl) | rfl := hstarts
    · exact isBlank_of_isWordChar (by simp [isWordChar, isLetterOrNumeral, hletter])
    · decide
    · decide
  have hall : ∀ d ∈ c :: cs, isBlank d = false :=
    List.forall_mem_cons.mpr ⟨hfirst, fun d hd => isBlank_of_isWordChar (hgoesOn d hd)⟩
  exact trimChars_eq_self (fun d hd => hall d (List.mem_of_head? hd))
    fun d hd => hall d (List.mem_of_getLast? hd)

namespace DefinedName

variable {name word : String} {c : Char} {cs : List Char}

theorem exists_word (h : fault? name = none) : ∃ c cs, name.toList = c :: cs ∧ Word c cs := by
  unfold fault? at h
  split at h
  · cases h
  · rename_i c cs hname
    have htext : name = String.ofList (c :: cs) := by rw [← hname, String.ofList_toList]
    rw [htext] at h
    split at h
    · cases h
    · split at h
      · cases h
      · split at h
        · cases h
        · split at h
          · cases h
          · rename_i hstart hall hcell hbool
            rw [Bool.not_eq_true, Bool.or_eq_false_iff] at hbool
            exact ⟨c, cs, hname, by simpa using hstart, by simpa using hall,
              Bool.not_eq_true _ ▸ hcell, hbool.1, hbool.2⟩

end DefinedName

/-! ## Words and references -/

/-- What is read as a coordinate is a cell's corner between blanks. -/
theorem Formula.Corner.exists_of_ofChars {cs : List Char} {coord : Coord}
    (h : Coord.ofChars cs = .ok coord) :
    ∃ corner : Corner, corner.side = .cell ∧ trimChars cs = corner.chars := by
  have htake (cs : List Char) : cs = markChars (Coord.takeMark cs).1 ++ (Coord.takeMark cs).2 := by
    unfold Coord.takeMark
    split <;> rfl
  unfold Coord.ofChars at h
  simp only [unless_eq_ok, bind_eq_ok] at h
  obtain ⟨-, -, col, hcol, h⟩ := h
  split at h
  · rename_i row hrow
    refine ⟨.cell (Coord.takeMark (trimChars cs)).1 ⟨_, col, hcol⟩
      (Coord.takeMark ((Coord.takeMark (trimChars cs)).2.dropWhile Char.isAlpha)).1
      ⟨_, row, hrow⟩, rfl, ?_⟩
    rw [chars, List.append_assoc, ← htake, List.takeWhile_append_dropWhile, ← htake]
  · simp [throw_eq_ok] at h

/-- What is scanned as a reference is not gone on by what follows it. -/
theorem Formula.Token.continuesName_of_reference? {cs : List Char} {kind : TokenKind} {n : Nat}
    (h : reference? cs = some (kind, n)) : continuesName (cs.drop n) = false := by
  unfold reference? at h
  obtain ⟨⟨k, side⟩, -, h⟩ := Option.bind_eq_some_iff.mp h
  obtain ⟨length, -, h⟩ := Option.bind_eq_some_iff.mp h
  split at h
  · cases h
  · rename_i hends
    cases h
    exact Bool.not_eq_true _ ▸ hends

namespace DefinedName.Word

open Formula

variable {c d : Char} {cs ds : List Char}

theorem notMem (h : Word c cs) {mark : Char} (hstart : startsWord mark = false)
    (hword : isWordChar mark = false) : mark ∉ c :: cs := by
  intro hmem
  obtain rfl | hmem := List.mem_cons.mp hmem
  · exact Bool.eq_false_iff.mp hstart h.starts
  · exact Bool.eq_false_iff.mp hword (h.goesOn _ hmem)

/-- No reference is scanned at a word: it would be one cell and make up the whole word. -/
theorem reference?_eq_none (h : Word c cs) : Token.reference? (c :: cs) = none := by
  rw [Option.eq_none_iff_forall_ne_some]
  rintro ⟨kind, n⟩ hreference
  obtain ⟨parts, rest, hparts, rfl, -⟩ := Parts.exists_of_reference? hreference
  have hcolon : ':' ∉ c :: cs := h.notMem (by decide) (by decide)
  have hbang : '!' ∉ c :: cs := h.notMem (by decide) (by decide)
  have hends := Token.continuesName_of_reference? hreference
  rw [hparts] at hcolon hbang hends
  rw [List.drop_left] at hends
  cases parts with
  | pair qualifier first again second sameSide qualified =>
      exact hcolon (by simp [Parts.chars])
  | single qualifier corner isCell =>
      cases qualifier with
      | some qualifier =>
          refine hbang (List.mem_append_left _ (List.mem_append_left _ ?_))
          cases qualifier <;> simp [Qualifier.charsOf, Qualifier.chars]
      | none =>
          have hchars : c :: cs = corner.chars ++ rest := hparts
          cases rest with
          | nil =>
              have hcell := h.noCell
              rw [hchars, List.append_nil, Coord.isText, Corner.ofChars_chars isCell] at hcell
              cases hcell
          | cons d rest =>
              have hd : d ∈ cs := by
                obtain ⟨front, hfront⟩ := List.exists_cons_of_ne_nil corner.chars_ne_nil
                obtain ⟨tail, hfront⟩ := hfront
                rw [hfront, List.cons_append] at hchars
                rw [(List.cons.inj hchars).2]
                simp
              have hword : isWordChar d = false := by
                simp only [Token.continuesName, Bool.or_eq_false_iff] at hends
                exact hends.1.1.1
              exact Bool.eq_false_iff.mp hword (h.goesOn d hd)

/-- What can be a name can be one in any case of its letters. -/
theorem of_lowered (h : Word c cs) (hequal : lowered (c :: cs) = lowered (d :: ds)) :
    Word d ds := by
  have hsame {p : Char → Bool} (hp : ∀ c, p c.toLower = p c) {a b : Char}
      (hab : a.toLower = b.toLower) : p a = p b := by rw [← hp a, hab, hp]
  obtain ⟨hhead, htail⟩ := List.cons.inj hequal
  have hstarts : startsWord d := hsame startsWord_toLower hhead ▸ h.starts
  have hgoesOn : ∀ b ∈ ds, isWordChar b := by
    intro b hb
    have hmem : b.toLower ∈ cs.map Char.toLower := htail ▸ List.mem_map_of_mem hb
    obtain ⟨a, ha, hab⟩ := List.mem_map.mp hmem
    exact hsame isWordChar_toLower hab ▸ h.goesOn a ha
  have hbool {text : String} (hc : equalIgnoringCase (String.ofList (c :: cs)) text = false) :
      equalIgnoringCase (String.ofList (d :: ds)) text = false := by
    rw [Bool.eq_false_iff] at hc ⊢
    refine fun hd => hc (equalIgnoringCase_trans (equalIgnoringCase_iff.mpr ?_) hd)
    simpa [lowered] using hequal
  refine ⟨hstarts, hgoesOn, ?_, hbool h.noTrue, hbool h.noFalse⟩
  -- a cell in one case would be scanned as one in the other
  cases hcoord : Coord.ofChars (d :: ds) with
  | error fault => simp [Coord.isText, hcoord, Except.isOk, Except.toBool]
  | ok coord =>
      obtain ⟨corner, hside, hchars⟩ := Corner.exists_of_ofChars hcoord
      rw [trimChars_of_startsWord hstarts hgoesOn] at hchars
      have hfound := Parts.reference?_chars (.single none corner hside)
      have hchars : d :: ds = Parts.chars (.single none corner hside) := hchars
      rw [← hchars, ← Token.reference?_lowered, ← hequal, Token.reference?_lowered,
        h.reference?_eq_none] at hfound
      cases hfound

/-! ## A word as a formula -/

theorem not_isDigit (h : Word c cs) : c.isDigit = false := by
  refine Bool.eq_false_iff.mpr fun hdigit => ?_
  have hle : c.toNat ≤ 57 :=
    UInt32.le_iff_toNat_le.mp (of_decide_eq_true ((Bool.and_eq_true _ _).mp hdigit).2)
  have hstarts := h.starts
  simp only [startsWord, isLetter, not_isAlpha_of_isDigit hdigit, Bool.false_or, Bool.or_eq_true,
    Bool.and_eq_true, decide_eq_true_eq, beq_iff_eq] at hstarts
  obtain (⟨hge, -⟩ | rfl) | rfl := hstarts
  · omega
  · cases hdigit
  · cases hdigit

/-- A word is scanned as one name. -/
theorem lexeme_eq (h : Word c cs) : Token.lexeme (c :: cs) = .ok (.name, 1 + cs.length) := by
  have hblank : isBlank c = false := by
    have htrim := trimChars_of_startsWord h.starts (List.forall_mem_nil _)
    cases hc : isBlank c with
    | false => rfl
    | true =>
        rw [trimChars, trimLeft, List.dropWhile_cons_of_pos hc] at htrim
        cases htrim
  have htail : cs.takeWhile isWordChar = cs := List.takeWhile_eq_self_iff.mpr h.goesOn
  have hkind : Token.nameKind (c :: cs) [] = .ok .name := by
    simp only [Token.nameKind, h.noTrue, h.noFalse, Bool.or_self, Bool.false_eq_true, if_false]
  have hstarts := h.starts
  unfold Token.lexeme
  dsimp only
  rw [if_neg (by simp [hblank])]
  split
  case h_21 =>
    have hpoint : c ≠ '.' := by
      rintro rfl
      exact absurd hstarts (by decide)
    have hmark : c ≠ '$' := by
      rintro rfl
      exact absurd hstarts (by decide)
    simp only [h.not_isDigit, hstarts, beq_eq_false_iff_ne.mpr hpoint,
      beq_eq_false_iff_ne.mpr hmark, h.reference?_eq_none, htail, List.drop_length, hkind,
      Bool.or_false, Bool.false_eq_true, if_false, if_true]
    rfl
  all_goals exact absurd hstarts (by decide)

/-- A formula of one word is read as the name that the word is. -/
theorem ofText_eq (h : Word c cs) {entered : String}
    (hentered : CellContent.formulaBody entered.toList = c :: cs) :
    Expr.ofText entered = .ok (.name (String.ofList (c :: cs))) := by
  have htokens : Token.ofCharsFrom 0 (c :: cs) =
      .ok [⟨.name, String.ofList (c :: cs), 0⟩] := by
    rw [Token.ofCharsFrom]
    simp only [h.lexeme_eq, Nat.add_sub_cancel_left, List.take_length, List.drop_length]
    rw [Token.ofCharsFrom]
    rfl
  have hatom : Atom ⟨.name, String.ofList (c :: cs), 0⟩ (.name (String.ofList (c :: cs))) :=
    .name rfl
  rw [Expr.ofText, hentered, Expr.ofBody, bind_eq_ok]
  exact ⟨_, htokens, Expr.ofTokens_eq_ok.mpr (.ofOperand (.atom hatom))⟩

end DefinedName.Word

/-! ## A word as the text of `INDIRECT` -/

namespace Reference

variable {cs : List Char} {row col : Nat} {c : Char} {default : String} {base : CellAddress}

/-- The text is `R` with the number of a row and `C` with the number of a column, each letter in
either case. -/
inductive CountsTo : List Char → Nat → Nat → Prop where
  | intro {r c : Char} {rows cols : List Char} {row col : Nat} (hr : isRowLetter r)
      (hrows : Grid.readRow? rows = some row) (hc : isColLetter c)
      (hcols : Grid.readCol? cols = some col) : CountsTo (r :: (rows ++ c :: cols)) row col

theorem not_isDigit_of_isColLetter (hc : isColLetter c) : c.isDigit = false := by
  obtain rfl | rfl := ((Bool.or_eq_true _ _).mp hc).imp eq_of_beq eq_of_beq <;> rfl

theorem CountsTo.readAbsoluteR1C1? (h : CountsTo cs row col) :
    readAbsoluteR1C1? cs = some ⟨row, col, true, true⟩ := by
  cases h with
  | @intro r c rows cols _ _ hr hrows hc hcols =>
      have hdigits : ∀ d ∈ rows, d.isDigit := Formula.RowDigits.isDigit ⟨rows, row, hrows⟩
      have hend : ¬ c.isDigit = true := by simp [not_isDigit_of_isColLetter hc]
      have htake : (rows ++ c :: cols).takeWhile Char.isDigit = rows := by
        rw [List.takeWhile_append_of_pos hdigits, List.takeWhile_cons_of_neg hend,
          List.append_nil]
      have hdrop : (rows ++ c :: cols).dropWhile Char.isDigit = c :: cols := by
        rw [List.dropWhile_append_of_pos hdigits, List.dropWhile_cons_of_neg hend]
      simp [Reference.readAbsoluteR1C1?, hr, htake, hdrop, hc, hrows, hcols]

theorem countsTo_of_readAbsoluteR1C1? {coord : Coord} (h : readAbsoluteR1C1? cs = some coord) :
    CountsTo cs coord.row coord.col := by
  unfold Reference.readAbsoluteR1C1? at h
  split at h
  · cases h
  rename_i r cs
  split at h
  · rename_i hr
    split at h
    · cases h
    rename_i c digits hdrop
    split at h
    · rename_i hc
      obtain ⟨row, hrow, h⟩ := Option.bind_eq_some_iff.mp h
      obtain ⟨col, hcol, h⟩ := Option.bind_eq_some_iff.mp h
      cases h
      rw [← @List.takeWhile_append_dropWhile _ Char.isDigit cs, hdrop]
      exact .intro hr hrow hc hcol
    · cases h
  · cases h

end Reference

namespace DefinedName.Word

open Reference

variable {c : Char} {cs : List Char} {row col : Nat} {default : String} {base : CellAddress}

/-- A word names no sheet. -/
theorem splitCornersChars (h : Word c cs) :
    SheetName.splitCornersChars (c :: cs) = .ok (none, c :: cs) := by
  have hcolon : splitFirst? ':' (c :: cs) = none :=
    splitFirst?_eq_none_iff.mpr (h.notMem (by decide) (by decide))
  have hbang : splitLast? '!' (c :: cs) = none :=
    splitLast?_eq_none_iff.mpr (h.notMem (by decide) (by decide))
  have htrim := trimChars_of_startsWord h.starts h.goesOn
  have hstarts := h.starts
  unfold SheetName.splitCornersChars SheetName.splitChars
  simp only [htrim, hcolon]
  split
  · rename_i rest hquote
    obtain ⟨rfl, -⟩ := List.cons.inj hquote
    exact absurd hstarts (by decide)
  · simp only [hbang]

theorem readCoord? (h : Word c cs) :
    Reference.readCoord? (c :: cs) = readAbsoluteR1C1? (c :: cs) := by
  have hcell := h.noCell
  unfold Reference.readCoord?
  rw [trimChars_of_startsWord h.starts h.goesOn]
  cases hcoord : Coord.ofChars (c :: cs) with
  | error fault => rfl
  | ok coord => simp [Coord.isText, hcoord, Except.isOk, Except.toBool] at hcell

/-- In A1 style a word is read as the cell that it counts to. -/
theorem readArea_of_countsTo (h : Word c cs) (hcounts : CountsTo (c :: cs) row col)
    (hdefault : default ≠ "") :
    readArea (c :: cs) default = .ok (.ofCell ⟨default, row, col⟩) := by
  have hcolon : splitFirst? ':' (c :: cs) = none :=
    splitFirst?_eq_none_iff.mpr (h.notMem (by decide) (by decide))
  have hcorners : readCorners (c :: cs) =
      .ok ⟨⟨row, col, true, true⟩, ⟨row, col, true, true⟩, .cells⟩ := by
    simp only [readCorners, hcolon, h.readCoord?, hcounts.readAbsoluteR1C1?, Option.map_some]
  unfold readArea
  simp only [bind_eq_ok, mapError_eq_ok, unless_eq_ok, pure_eq_ok]
  exact ⟨_, h.splitCornersChars, by simpa using hdefault, _, hcorners, rfl⟩

/-- A word that counts to no cell is no reference in A1 style. -/
theorem readArea_of_not_countsTo (h : Word c cs)
    (hcounts : ∀ row col, ¬ CountsTo (c :: cs) row col) (default : String) :
    ∃ fault, readArea (c :: cs) default = .error fault := by
  have hcolon : splitFirst? ':' (c :: cs) = none :=
    splitFirst?_eq_none_iff.mpr (h.notMem (by decide) (by decide))
  have hnone : readAbsoluteR1C1? (c :: cs) = none :=
    Option.eq_none_iff_forall_ne_some.mpr fun coord hcoord =>
      hcounts _ _ (countsTo_of_readAbsoluteR1C1? hcoord)
  cases hread : readArea (c :: cs) default with
  | error fault => exact ⟨fault, rfl⟩
  | ok area =>
      simp only [readArea, bind_eq_ok, mapError_eq_ok, unless_eq_ok] at hread
      obtain ⟨_, hsplit, -, corners, hcorners, -⟩ := hread
      cases h.splitCornersChars.symm.trans hsplit
      simp only [readCorners, hcolon, h.readCoord?, hnone] at hcorners
      cases hcorners

/-- A word that starts with neither `R` nor `C` counts neither rows nor columns. -/
theorem readCountedArea_error (h : Word c cs) (hrow : isRowLetter c = false)
    (hcol : isColLetter c = false) : ∃ fault, readCountedArea (c :: cs) base = .error fault := by
  have hcolon : splitFirst? ':' (c :: cs) = none :=
    splitFirst?_eq_none_iff.mpr (h.notMem (by decide) (by decide))
  have htrim := trimChars_of_startsWord h.starts h.goesOn
  have hcells : readRowCol? (c :: cs) base = none := by simp [readRowCol?, htrim, hrow]
  have hrows : readCountedRow? (c :: cs) base = none := by simp [readCountedRow?, hrow]
  have hcols : readCountedCol? (c :: cs) base = none := by simp [readCountedCol?, hcol]
  unfold readCountedArea
  rw [h.splitCornersChars]
  exact ⟨_, by simp only [Except.mapError, bind, Except.bind, hcolon, Option.getD_none, hcells,
    hrows, hcols]; rfl⟩

end DefinedName.Word

namespace Function

variable {site : Site} {args : List Argument} {s sheet : String} {area : Area} {fault : Fault}

/-- Text that is no reference in the style asked for is looked up as a name. -/
theorem indirect_of_named {inA1 : Bool} (htext : args.head?.bind Argument.text? = some s)
    (hstyle : (args[1]?.bind Argument.bool?).getD true = inA1) (hne : trimChars s.toList ≠ [])
    (hread : (if inA1 then Reference.readArea (trimChars s.toList) site.cell.sheet
      else Reference.readCountedArea (trimChars s.toList) site.cell) = .error fault)
    (hname : site.source.nameTarget? (String.ofList (trimChars s.toList)) = some area)
    (hsheet : site.source.sheetName? area.sheet = some sheet) :
    indirect site args = .ofArea { area with sheet } :=
  indirect_of_area htext hstyle hne hread (.inr ⟨⟨fault, rfl⟩, hname⟩) hsheet

end Function

/-! ## Both ways -/

namespace Workbook

/-- **What a defined name denotes.** In a built workbook, take a defined name in any case of its
ASCII letters, and any calling cell in the grid of a sheet. A formula of this word is read as the
name and gives the area that the name was defined for. `INDIRECT` of the word in A1 style gives the
same area, unless the word is `R` with the number of a row and `C` with the number of a column: then
it gives that cell of the calling cell's sheet. In the style that counts rows and columns it gives
the area if the word starts with neither `R` nor `C`. -/
theorem name_denotes {book : Workbook} {entry : DefinedName} {word : String} {site : Site}
    {cell : CellAddress} {registry : Registry} (hbook : book.Built)
    (hentry : entry ∈ book.names.entries) (hword : equalIgnoringCase entry.name word)
    (hsource : site.source = { workbook := book })
    (hcell : site.source.canonical site.cell = .ok cell) :
    (∀ entered : String, CellContent.formulaBody entered.toList = word.toList →
      Formula.Expr.ofText entered = .ok (.name word)) ∧
    (Formula.Expr.name word).operand registry site = .done (.ofArea entry.target) ∧
    (∀ args, Function.AsksInA1 args word →
      ((∀ row col, ¬ Reference.CountsTo word.toList row col) →
        Function.indirect site args = .ofArea entry.target) ∧
      (∀ row col, Reference.CountsTo word.toList row col →
        Function.indirect site args = .ofArea (.ofCell ⟨cell.sheet, row, col⟩))) ∧
    ((∀ c ∈ word.toList.head?, !Reference.isRowLetter c && !Reference.isColLetter c) →
      ∀ args, Function.AsksCounted args word →
        Function.indirect site args = .ofArea entry.target) := by
  have hnamed := hbook.wellNamed
  obtain ⟨⟨hne, -, -⟩, own, hown, rfl⟩ := Source.canonical_eq_ok.mp hcell
  -- the word in its own case is one that can be a name
  obtain ⟨d, ds, hname, hplain⟩ := DefinedName.exists_word (hnamed.words entry hentry)
  have hlowered : lowered entry.name.toList = lowered word.toList := equalIgnoringCase_iff.mp hword
  obtain ⟨c, cs, hchars⟩ : ∃ c cs, word.toList = c :: cs := by
    cases hchars : word.toList with
    | nil => simp [hname, hchars] at hlowered
    | cons c cs => exact ⟨c, cs, rfl⟩
  rw [hname, hchars] at hlowered
  have hplain := hplain.of_lowered hlowered
  have htext : String.ofList (c :: cs) = word := by rw [← hchars, String.ofList_toList]
  have htrim : trimChars word.toList = c :: cs := by
    rw [hchars, trimChars_of_startsWord hplain.starts hplain.goesOn]
  -- it is found under its target, whose sheet is spelled as the workbook spells it
  have htarget : site.source.nameTarget? word = some entry.target := by
    rw [hsource]
    exact hnamed.nameTarget?_of_equal hentry hword
  have hstored : site.source.sheetName? entry.target.sheet = some entry.target.sheet := by
    rw [hsource]
    exact (hnamed.targets entry hentry).2
  have hindirect {inA1 : Bool} {args : List Argument} {fault : Fault}
      (hargs : args.head?.bind Argument.text? = some word)
      (hstyle : (args[1]?.bind Argument.bool?).getD true = inA1)
      (hread : (if inA1 then Reference.readArea (c :: cs) site.cell.sheet
        else Reference.readCountedArea (c :: cs) site.cell) = .error fault) :
      Function.indirect site args = .ofArea entry.target :=
    Function.indirect_of_named hargs hstyle (htrim ▸ List.cons_ne_nil c cs) (htrim ▸ hread)
      (by rw [htrim, htext, htarget]) hstored
  refine ⟨fun entered hentered => ?_, ?_, fun args hargs => ⟨fun hcounts => ?_, ?_⟩, ?_⟩
  · rw [hplain.ofText_eq (hentered.trans hchars), htext]
  · simp only [Formula.Expr.operand, Site.named, htarget, hstored]
  · rw [hchars] at hcounts
    obtain ⟨fault, hread⟩ := hplain.readArea_of_not_countsTo hcounts site.cell.sheet
    exact hindirect hargs.text hargs.inA1 hread
  · intro row col hcounts
    rw [hchars] at hcounts
    have hread := hplain.readArea_of_countsTo hcounts hne
    rw [← htrim] at hread
    exact Function.indirect_of_readArea hargs (htrim ▸ List.cons_ne_nil c cs) hread hown
  · intro hfirst args hargs
    have hletter := hfirst c (by rw [hchars]; rfl)
    rw [Bool.and_eq_true, Bool.not_eq_true', Bool.not_eq_true'] at hletter
    obtain ⟨fault, hread⟩ := hplain.readCountedArea_error hletter.1 hletter.2
    exact hindirect hargs.text hargs.counted hread

/-- The workbook with one sheet and one defined name, for a block of two rows and two columns. -/
def naming (name : String) : Workbook :=
  { Workbook.new with names := { entries := [{ name, target := ⟨"Sheet1", 2, 2, 3, 3, .cells⟩ }] } }

theorem defineName_naming {name : String} (h : DefinedName.fault? name = none) :
    Workbook.new.defineName name "C3:B2" = .ok (naming name) :=
  defineName_eq_ok.mpr ⟨"Sheet1", ⟨"Sheet1", 2, 2, 3, 3, .cells⟩, "Sheet1", rfl, by decide +kernel,
    by decide, h, rfl, rfl⟩

/-- A name with letters beyond ASCII and a point, asked for in another case. -/
theorem name_denotes_cased :
    let site : Site := ⟨{ workbook := naming "größe.r1c1" }, ⟨"Sheet1", 5, 6⟩, 1⟩
    let target : Area := ⟨"Sheet1", 2, 2, 3, 3, .cells⟩
    Formula.Expr.ofText " =GRößE.R1C1 " = .ok (.name "GRößE.R1C1") ∧
      (Formula.Expr.name "GRößE.R1C1").operand .builtins site = .done (.ofArea target) ∧
      Function.indirect site [.value (.text "GRößE.R1C1")] = .ofArea target ∧
      Function.indirect site [.value (.text "GRößE.R1C1"), .value (.bool false)] =
        .ofArea target := by
  intro site target
  have hbuilt : (naming "größe.r1c1").Built := .defineName .new (defineName_naming (by decide))
  have hentry : { name := "größe.r1c1", target := target } ∈ (naming "größe.r1c1").names.entries :=
    List.mem_cons_self
  have hcell : site.source.canonical site.cell = .ok site.cell := by rfl
  obtain ⟨hread, hname, hindirect, hcounted⟩ :=
    @name_denotes _ _ "GRößE.R1C1" site site.cell .builtins hbuilt hentry (by decide) rfl hcell
  have hcounts : ∀ row col, ¬ Reference.CountsTo "GRößE.R1C1".toList row col := by
    intro row col hcounts
    have hnone : Reference.readAbsoluteR1C1? "GRößE.R1C1".toList = none := by decide
    cases hcounts.readAbsoluteR1C1?.symm.trans hnone
  have hfirst : ∀ c ∈ "GRößE.R1C1".toList.head?,
      !Reference.isRowLetter c && !Reference.isColLetter c := by
    rintro c ⟨⟩
    decide
  exact ⟨hread _ (by decide), hname, (hindirect _ ⟨rfl, rfl⟩).1 hcounts,
    hcounted hfirst _ ⟨rfl, rfl⟩⟩

/-- A name can be a reference by absolute numbers: a workbook takes it, a formula of the name gives
the area that it was defined for, and `INDIRECT` of the name gives another one. -/
theorem counting_name_denotes_two :
    let site : Site := ⟨{ workbook := naming "R1C1" }, ⟨"Sheet1", 5, 6⟩, 1⟩
    Workbook.new.defineName "R1C1" "C3:B2" = .ok (naming "R1C1") ∧
      (Formula.Expr.name "R1C1").operand .builtins site =
        .done (.ofArea ⟨"Sheet1", 2, 2, 3, 3, .cells⟩) ∧
      Function.indirect site [.value (.text "R1C1")] = .ofArea (.ofCell ⟨"Sheet1", 1, 1⟩) :=
  ⟨defineName_naming (by decide), rfl, by decide +kernel⟩

end Workbook

end Spreadsheet
