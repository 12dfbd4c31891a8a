-- SUMMARY: A formula that is one reference, and the text of cells and areas as a formula.
import Spreadsheet.Proofs.Grammar
import Spreadsheet.Proofs.ReferenceTokens

/-!
# References as formulas

The text of a cell or an area names its sheet in front, quoted if need be. As a formula it should be
one reference to that cell or area again. It is, for names of any letters and marks, up to one
spelling of the first character: a name that starts with a numeral beyond ASCII is written without
quotes, and no formula starts so.
-/

namespace Spreadsheet

open Text

namespace Formula

/-! ## Formulas of one token -/

section

variable {token : Token} {p : Phrase} {ts : List Token} {e : Expr} {finish : Nat}

/-- Of one token of a reference, the grammar derives what the reference is read as. -/
theorem Derives.referenceOf (hkind : token.kind = .reference ∨ token.kind = .sheetReference) :
    ∀ {p ts e}, Derives p ts e → ts = [token] → Grammar.referenceOf token = .ok e
  | _, _, _, .tighter _ he, hts => he.referenceOf hkind hts
  | _, _, _, .binary _ _ hl _ _, hts => by
      obtain ⟨token, rest, rfl, -⟩ := hl.exists_cons
      simp at hts
  | _, _, _, .percent he _, hts => by
      obtain ⟨token, rest, rfl, -⟩ := he.exists_cons
      simp at hts
  | _, _, _, .minus _ he, hts | _, _, _, .plus _ he, hts => by
      obtain ⟨token, rest, rfl, -⟩ := he.exists_cons
      simp at hts
  | _, _, _, .atom he, hts => by
      obtain ⟨rfl, -⟩ := List.cons.inj hts
      cases he with
      | constant h =>
          obtain hkind | hkind := hkind <;> simp [Grammar.constantOf?, hkind] at h
      | reference _ h => exact h
      | name hname => simp [hname] at hkind
  | _, _, _, .noArguments _ _ _, hts | _, _, _, .call _ _ _ _, hts | _, _, _, .group _ _ _, hts
  | _, _, _, .union _ _ _, hts | _, _, _, .table _ _ _, hts => by simp at hts

/-- One token of a reference is read as the expression that the reference is. -/
theorem Expr.ofTokens_reference (hkind : token.kind = .reference ∨ token.kind = .sheetReference) :
    Expr.ofTokens finish [token] = .ok e ↔ Grammar.referenceOf token = .ok e := by
  rw [Expr.ofTokens_eq_ok]
  constructor
  · exact fun h => h.referenceOf hkind rfl
  · intro h
    exact .ofOperand (.atom (.reference hkind h))

end

/-! ## Text that is one reference -/

namespace Token

variable {c : Char}

/-- A word that does not start as a reference or a name can has no first token. -/
theorem lexeme_of_isWordChar (hword : isWordChar c) (hc : ¬ StartsReference c) (cs : List Char) :
    lexeme (c :: cs) = .error (0, .unexpectedCharacter c) := by
  simp only [StartsReference, not_or] at hc
  obtain ⟨hquote, hmark, hpoint, hdigit, hstart⟩ := hc
  unfold lexeme
  dsimp only
  rw [if_neg (by simp [isBlank_of_isWordChar hword])]
  split
  case h_3 => exact absurd rfl hquote
  case h_21 => simp [hdigit, hpoint, hstart, hmark]
  all_goals exact absurd hword (by decide)

end Token

namespace Parts

variable {parts : Parts} {e : Expr}

theorem formulaBody_chars (parts : Parts) : CellContent.formulaBody parts.chars = parts.chars := by
  have hequals : ∀ c ∈ parts.chars.head?, c ≠ '=' := by
    refine parts.of_mem_head? (by decide) (by decide) ?_
    rintro c hc rfl
    exact absurd hc (by decide)
  unfold CellContent.formulaBody
  rw [trimChars_chars]
  split
  · rename_i cs hcs
    exact absurd rfl (hequals '=' (hcs ▸ rfl))
  · rfl

/-- A formula that is one token of a reference is read as what its parts denote, if they are
readable. -/
theorem exprOfText_text (htoken : Token.ofText parts.text = .ok [⟨parts.kind, parts.text, 0⟩]) :
    Expr.ofText parts.text = .ok e ↔ parts.Readable ∧ parts.expr = e := by
  have htoken : Token.ofCharsFrom 0 parts.chars = .ok [⟨parts.kind, parts.text, 0⟩] := by
    rwa [Token.ofText, text, String.toList_ofList] at htoken
  have hkind : (parts.kind != .blank) = true := by
    obtain h | h := parts.kind_eq <;> rw [h] <;> rfl
  have hread : Expr.ofText parts.text =
      Expr.ofTokens (byteLength parts.chars) [⟨parts.kind, parts.text, 0⟩] := by
    rw [Expr.ofText, text, String.toList_ofList, formulaBody_chars, Expr.ofBody, htoken]
    change Expr.ofTokens _ (List.filter _ [_]) = _
    rw [List.filter_cons, if_pos hkind, List.filter_nil, text]
  rw [hread]
  exact (Expr.ofTokens_reference parts.kind_eq).trans (referenceOf_chars rfl)

end Parts

end Formula

/-! ## The text of cells and areas -/

/-- The corners of an area, without marks. -/
def Area.corners (area : Area) : Corners where
  first := area.topLeft.coord
  last := area.bottomRight.coord
  kind := area.kind

/-- Formulas can start with the name as it stands in front of a reference: between apostrophes, or
as a word with a letter, `_` or a point in front. -/
def SheetName.Scannable (name : String) : Prop :=
  needsQuotes name.toList = true ∨ ∀ c ∈ name.toList.head?, startsWord c ∨ c = '.'

namespace Formula

variable {name : String} {row col : Nat} {rest : List Char}

namespace Qualifier

/-- The name of a sheet as it is written in front of a reference. -/
def ofName (name : String) (hne : name.toList ≠ []) : Qualifier :=
  if h : SheetName.needsQuotes name.toList = true then .quoted name.toList hne
  else .word name.toList hne
    (SheetName.isWordChar_of_not_needsQuotes (Bool.eq_false_iff.mpr h)).2

variable {hne : name.toList ≠ []}

theorem name_ofName : (ofName name hne).name = name.toList := by
  unfold ofName
  split <;> rfl

theorem sheet_ofName : (ofName name hne).sheet = name := by
  rw [sheet, name_ofName, String.ofList_toList]

theorem chars_ofName : (ofName name hne).chars = SheetName.beforeReference name := by
  unfold ofName SheetName.beforeReference SheetName.quotedChars
  split <;> simp [chars]

end Qualifier

namespace Parts

variable {cell : CellAddress} {area : Area}

/-- The name of a sheet stands in front, as it does in the text of cells and areas. -/
def OnSheet (parts : Parts) (name : String) : Prop :=
  ∃ hne, parts.qualifier = some (.ofName name hne)

/-- What is written of a name with a colon in neither of its corners is readable. -/
theorem readable_of_quotable (hname : SheetName.Quotable name) (hne : name.toList ≠ [])
    {parts : Parts} (hqualifier : parts.qualifier = some (.ofName name hne))
    (hsame : parts.SameSheets) (hone : parts.OneMark) : parts.Readable where
  sameSheets := hsame
  noColon := by
    intro qualifier hmem
    rw [hqualifier] at hmem
    cases hmem
    rw [Qualifier.name_ofName]
    exact hname.noColon
  oneMark := hone

theorem exists_cell (hname : SheetName.Quotable cell.sheet) (hrow : Grid.HasRow cell.row)
    (hcol : Grid.HasCol cell.col) : ∃ parts : Parts, parts.chars = cell.textChars ∧
      parts.OnSheet cell.sheet ∧ parts.Readable ∧
      parts.expr = .cell (some cell.sheet) cell.coord := by
  have hne : cell.sheet.toList ≠ [] := fun h => hname.ne_empty (String.toList_inj.mp h)
  refine ⟨.single (some (.ofName cell.sheet hne)) (.ofCell hrow hcol) rfl, ?_, ⟨hne, rfl⟩, ?_, ?_⟩
  · simp [chars, Qualifier.charsOf, Qualifier.chars_ofName, Corner.ofCell, Corner.chars,
      Corner.markChars, CellAddress.textChars]
  · exact readable_of_quotable hname hne rfl trivial (oneMark_single rfl)
  · simp [expr, Qualifier.sheet_ofName, Corner.ofCell, Corner.first, CellAddress.coord]

/-- Two corners that stand in order are the ones denoted. -/
theorem expr_of_le {hne : name.toList ≠ []} {first second : Corner}
    {sameSide : second.side = first.side} (hrows : first.first.row ≤ second.last.row)
    (hcols : first.first.col ≤ second.last.col) :
    expr (.pair (some (.ofName name hne)) first none second sameSide nofun) =
      .area (some name) ⟨first.first, second.last, areaKind first.side⟩ := by
  simp [expr, cornersOf, Coord.corners, hrows, hcols, Qualifier.sheet_ofName]

theorem exists_area (hname : SheetName.Quotable area.sheet) (harea : area.WellFormed)
    (hsingle : area.kind = .cells → area.isSingleCell = false) :
    ∃ parts : Parts, parts.chars = area.textChars ∧ parts.OnSheet area.sheet ∧ parts.Readable ∧
      parts.expr = .area (some area.sheet) area.corners := by
  have hne : area.sheet.toList ≠ [] := fun h => hname.ne_empty (String.toList_inj.mp h)
  obtain ⟨sheet, top, left, bottom, right, kind⟩ := area
  have hread (first second : Corner) (sameSide : second.side = first.side)
      (hmarks : first.rowMarks = 0 ∧ second.rowMarks = 0) :
      Readable (.pair (some (.ofName sheet hne)) first none second sameSide nofun) := by
    refine readable_of_quotable hname hne rfl nofun ?_
    simp [OneMark, corners, hmarks]
  cases kind with
  | columns =>
      obtain ⟨rfl, rfl⟩ := harea.wholeColumns rfl
      refine ⟨.pair (some (.ofName sheet hne)) (.ofCol harea.hasCol_left) none
        (.ofCol harea.hasCol_right) rfl nofun, ?_, ⟨hne, rfl⟩, hread _ _ _ ⟨rfl, rfl⟩, ?_⟩
      · simp [chars, Qualifier.charsOf, Qualifier.chars_ofName, Corner.ofCol, Corner.chars,
          Corner.markChars, Area.textChars]
      · exact expr_of_le harea.rows harea.cols
  | rows =>
      obtain ⟨rfl, rfl⟩ := harea.wholeRows rfl
      refine ⟨.pair (some (.ofName sheet hne)) (.ofRow harea.hasRow_top) none
        (.ofRow harea.hasRow_bottom) rfl nofun, ?_, ⟨hne, rfl⟩, hread _ _ _ ⟨rfl, rfl⟩, ?_⟩
      · simp [chars, Qualifier.charsOf, Qualifier.chars_ofName, Corner.ofRow, Corner.chars,
          Area.textChars]
      · exact expr_of_le harea.rows harea.cols
  | cells =>
      refine ⟨.pair (some (.ofName sheet hne)) (.ofCell harea.hasRow_top harea.hasCol_left) none
        (.ofCell harea.hasRow_bottom harea.hasCol_right) rfl nofun, ?_,
        ⟨hne, rfl⟩, hread _ _ _ ⟨rfl, rfl⟩, ?_⟩
      · simp [chars, Qualifier.charsOf, Qualifier.chars_ofName, Corner.ofCell, Corner.chars,
          Corner.markChars, Area.textChars, hsingle rfl]
      · exact expr_of_le harea.rows harea.cols

theorem OnSheet.head?_chars {parts : Parts} (h : parts.OnSheet name) :
    parts.chars.head? = (SheetName.beforeReference name).head? := by
  obtain ⟨hne, h⟩ := h
  have hfront : SheetName.beforeReference name ≠ [] := by simp [SheetName.beforeReference]
  cases parts with
  | single qualifier corner isCell =>
      obtain rfl : qualifier = _ := h
      rw [chars, Qualifier.charsOf, Qualifier.chars_ofName, List.head?_append_of_ne_nil _ hfront]
  | pair qualifier first again second sameSide qualified =>
      obtain rfl : qualifier = _ := h
      rw [chars, Qualifier.charsOf, Qualifier.chars_ofName, List.head?_append_of_ne_nil _ hfront]

end Parts

/-! ## The first character -/

/-- A scannable name starts as a reference can. -/
theorem startsReference_of_scannable (h : SheetName.Scannable name) :
    ∀ c ∈ (SheetName.beforeReference name).head?, StartsReference c := by
  unfold SheetName.beforeReference SheetName.quotedChars
  split
  · rintro c ⟨⟩
    exact .inl rfl
  · rename_i hquotes
    have hne := (SheetName.isWordChar_of_not_needsQuotes (Bool.eq_false_iff.mpr hquotes)).1
    intro c hc
    rw [List.head?_append_of_ne_nil _ hne] at hc
    obtain hc | rfl := (h.resolve_left hquotes) c hc
    · exact .inr (.inr (.inr (.inr hc)))
    · exact .inr (.inr (.inl rfl))

/-- A name that is not scannable stands without apostrophes and starts with a numeral that is no
digit. -/
theorem head_of_not_scannable (h : ¬ SheetName.Scannable name) :
    ∃ c, name.toList.head? = some c ∧ (SheetName.beforeReference name).head? = some c ∧
      isNumeral c ∧ c.isDigit = false ∧ isWordChar c ∧ ¬ StartsReference c := by
  simp only [SheetName.Scannable, not_or, not_forall] at h
  obtain ⟨hquotes, c, hhead, hstart, hpoint⟩ := h
  have hquotes := Bool.eq_false_iff.mpr hquotes
  obtain ⟨hne, hwords⟩ := SheetName.isWordChar_of_not_needsQuotes hquotes
  have hword : isWordChar c := hwords c (List.mem_of_head? hhead)
  have hdigit : c.isDigit = false := by
    simp only [SheetName.needsQuotes, Bool.or_eq_false_iff] at hquotes
    simpa [Option.mem_def.mp hhead] using hquotes.1.1.1
  refine ⟨c, hhead, ?_, ?_, hdigit, hword, ?_⟩
  · rw [SheetName.beforeReference, SheetName.quotedChars, if_neg (by simp [hquotes]),
      List.head?_append_of_ne_nil _ hne]
    exact hhead
  · simp only [startsWord, Bool.or_eq_true, beq_iff_eq, not_or] at hstart
    simpa [isWordChar, isLetterOrNumeral, hstart, hpoint] using hword
  · rintro (rfl | rfl | h | h | h)
    · exact absurd hword (by decide)
    · exact absurd hword (by decide)
    · exact hpoint h
    · exact absurd h (by simp [hdigit])
    · exact hstart h

namespace Parts

variable {parts : Parts} {c : Char}

/-- With a scannable name in front, readable parts are read as what they denote. -/
theorem OnSheet.exprOfText (h : parts.OnSheet name) (hscan : SheetName.Scannable name)
    (hread : parts.Readable) : Expr.ofText parts.text = .ok parts.expr := by
  refine (exprOfText_text (Token.ofText_parts ?_)).mpr ⟨hread, rfl⟩
  rw [h.head?_chars]
  exact startsReference_of_scannable hscan

/-- With a name in front that is not scannable, nothing is read. -/
theorem OnSheet.exprOfText_error (h : parts.OnSheet name) (hscan : ¬ SheetName.Scannable name)
    (hc : name.toList.head? = some c) :
    Expr.ofText parts.text = .error ⟨0, .unexpectedCharacter c⟩ := by
  obtain ⟨d, hd, hhead, -, -, hword, hstart⟩ := head_of_not_scannable hscan
  obtain rfl : d = c := Option.some.inj (hd.symm.trans hc)
  obtain ⟨cs, hcs⟩ := List.head?_eq_some_iff.mp (h.head?_chars.trans hhead)
  rw [Expr.ofText, text, String.toList_ofList, formulaBody_chars, Expr.ofBody, hcs,
    Token.ofCharsFrom]
  simp only [Token.lexeme_of_isWordChar hword hstart]
  rfl

end Parts

/-! ## The text of a reference as a formula -/

/-- **The text of a reference is a formula that is read as the reference**, unless the name of the
sheet stands without apostrophes and starts with a numeral that is no digit. For every name that a
workbook takes, the text of a cell in the grid is read as that cell, and the text of a well-formed
area of several cells or of whole columns or rows as that area: the name, the corners and the kind.
With a name of the other sort all these texts are refused at their first character. -/
theorem canonical_text_read {book book' : Workbook} (h : book.addSheet name = .ok book') :
    (SheetName.Scannable name →
      (∀ cell : CellAddress, cell.sheet = name → Grid.HasRow cell.row → Grid.HasCol cell.col →
        Expr.ofText cell.text = .ok (.cell (some name) cell.coord)) ∧
      ∀ area : Area, area.sheet = name → area.WellFormed →
        (area.kind = .cells → area.isSingleCell = false) →
        Expr.ofText area.text = .ok (.area (some name) area.corners)) ∧
    (¬ SheetName.Scannable name →
      ∃ c, name.toList.head? = some c ∧ isNumeral c ∧ c.isDigit = false ∧
        (∀ cell : CellAddress, cell.sheet = name → Grid.HasRow cell.row → Grid.HasCol cell.col →
          Expr.ofText cell.text = .error ⟨0, .unexpectedCharacter c⟩) ∧
        ∀ area : Area, area.sheet = name → area.WellFormed →
          (area.kind = .cells → area.isSingleCell = false) →
          Expr.ofText area.text = .error ⟨0, .unexpectedCharacter c⟩) := by
  have hname : SheetName.Quotable name := by
    cases hfault : SheetName.fault? name with
    | none => exact SheetName.quotable_of_fault? hfault
    | some cause =>
        simp only [Workbook.addSheet, hfault] at h
        cases h
  -- the texts of cells and areas have parts on the sheet, and these are scanned or refused
  have hcells {cell : CellAddress} (hsheet : cell.sheet = name) (hrow : Grid.HasRow cell.row)
      (hcol : Grid.HasCol cell.col) : ∃ parts : Parts, cell.text = parts.text ∧
        parts.OnSheet name ∧ parts.Readable ∧ parts.expr = .cell (some name) cell.coord := by
    subst hsheet
    obtain ⟨parts, hchars, hparts⟩ := Parts.exists_cell hname hrow hcol
    exact ⟨parts, congrArg String.ofList hchars.symm, hparts⟩
  have hareas {area : Area} (hsheet : area.sheet = name) (harea : area.WellFormed)
      (hsingle : area.kind = .cells → area.isSingleCell = false) : ∃ parts : Parts,
        area.text = parts.text ∧ parts.OnSheet name ∧ parts.Readable ∧
          parts.expr = .area (some name) area.corners := by
    subst hsheet
    obtain ⟨parts, hchars, hparts⟩ := Parts.exists_area hname harea hsingle
    exact ⟨parts, congrArg String.ofList hchars.symm, hparts⟩
  constructor
  · intro hscan
    constructor
    · intro cell hsheet hrow hcol
      obtain ⟨parts, htext, hon, hread, hexpr⟩ := hcells hsheet hrow hcol
      rw [htext, ← hexpr, hon.exprOfText hscan hread]
    · intro area hsheet harea hsingle
      obtain ⟨parts, htext, hon, hread, hexpr⟩ := hareas hsheet harea hsingle
      rw [htext, ← hexpr, hon.exprOfText hscan hread]
  · intro hscan
    obtain ⟨c, hc, -, hnumeral, hdigit, -, -⟩ := head_of_not_scannable hscan
    refine ⟨c, hc, hnumeral, hdigit, ?_, ?_⟩
    · intro cell hsheet hrow hcol
      obtain ⟨parts, htext, hon, -, -⟩ := hcells hsheet hrow hcol
      rw [htext, hon.exprOfText_error hscan hc]
    · intro area hsheet harea hsingle
      obtain ⟨parts, htext, hon, -, -⟩ := hareas hsheet harea hsingle
      rw [htext, hon.exprOfText_error hscan hc]

/-- A name with an apostrophe, with the last cell of its sheet and with whole columns. -/
theorem canonical_text_read_apostrophe :
    (Workbook.new.addSheet "it's").isOk ∧
      Expr.ofText "'it''s'!XFD1048576" = .ok (.cell (some "it's") ⟨1048576, 16384, false, false⟩) ∧
      Expr.ofText "'it''s'!B:AB" = .ok (.area (some "it's")
        ⟨⟨1, 2, false, false⟩, ⟨1048576, 28, false, false⟩, .columns⟩) := by
  have hok : (Workbook.new.addSheet "it's").isOk := by decide
  obtain ⟨book', hbook⟩ : ∃ book', Workbook.new.addSheet "it's" = .ok book' := by
    generalize Workbook.new.addSheet "it's" = added at hok
    cases added with
    | error => cases hok
    | ok book' => exact ⟨book', rfl⟩
  have hquotes : SheetName.needsQuotes "it's".toList = true := by decide
  obtain ⟨hcells, hareas⟩ := (canonical_text_read hbook).1 (.inl hquotes)
  have hcell := hcells ⟨"it's", 1048576, 16384⟩ rfl (by decide) (by decide)
  have hcolumns : (Area.wholeColumns "it's" 2 28).WellFormed := {
    top := by decide
    rows := by decide
    left := by decide
    cols := by decide
    bottom_le := by decide
    right_le := by decide
    wholeColumns := fun _ => ⟨by decide, by decide⟩
    wholeRows := nofun }
  have harea := hareas _ rfl hcolumns nofun
  refine ⟨hok, ?_, ?_⟩
  · rwa [show CellAddress.text ⟨"it's", 1048576, 16384⟩ = "'it''s'!XFD1048576" by
      decide +kernel] at hcell
  · rwa [show (Area.wholeColumns "it's" 2 28).text = "'it''s'!B:AB" by decide +kernel] at harea

set_option maxRecDepth 4000 in
/-- A workbook takes a name with a raised two in front, and the text of a cell on that sheet is no
formula. -/
theorem raised_two_refused :
    (Workbook.new.addSheet "²x").isOk ∧ CellAddress.text ⟨"²x", 1, 1⟩ = "²x!A1" ∧
      Expr.ofText "²x!A1" = .error ⟨0, .unexpectedCharacter '²'⟩ :=
  ⟨by decide, by decide +kernel, by decide +kernel⟩

end Formula

end Spreadsheet
