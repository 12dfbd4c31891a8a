-- SUMMARY: `INDIRECT` gives for text what the text gives as a formula.
import Spreadsheet.Proofs.Builtins
import Spreadsheet.Proofs.ReferenceFormulas

/-!
# References read when they are computed

The text of a reference is read in two ways. As a formula it is scanned, parsed and then evaluated
at a cell. As an argument of `INDIRECT` it is read at once, and a sheet it does not name is that of
the cell. Both ways lead to the same area, although they spell its sheet differently.
-/

namespace Spreadsheet

open Text

/-! ## The area that parts denote -/

namespace Formula

namespace Parts

variable {parts : Parts} {site : Site} {sheet default : String}

/-- The corners that the parts denote. A single cell is both of them. -/
def denoted : Parts → Corners
  | .single _ corner _ => ⟨corner.first, corner.first, .cells⟩
  | .pair _ first _ second .. => cornersOf first second

/-- The sheet that stands in front, if there is one. -/
def sheet? (parts : Parts) : Option String := parts.qualifier.map Qualifier.sheet

theorem sheetPrefix?_expr (parts : Parts) : parts.expr.sheetPrefix? = parts.sheet? := by
  cases parts <;> rfl

theorem sheet?_ne_empty : ∀ name ∈ parts.sheet?, name ≠ "" := by
  intro name hname hempty
  obtain ⟨qualifier, -, rfl⟩ := Option.map_eq_some_iff.mp hname
  have hnil : qualifier.name = [] := String.ofList_eq_empty_iff.mp hempty
  cases qualifier with
  | word name hne _ | quoted name hne => exact hne hnil

theorem readCorners_body (hone : parts.OneMark) :
    Reference.readCorners parts.body = .ok parts.denoted := by
  cases parts with
  | single qualifier corner isCell =>
      have hcoord : Reference.readCoord? corner.chars = some corner.first := by
        rw [Reference.readCoord?, Corner.ofChars_chars isCell]
      rw [body, Reference.readCorners, splitFirst?_eq_none_iff.mpr (notMem_chars_corner corner)]
      simp only [hcoord]
      rfl
  | pair qualifier first again second sameSide qualified =>
      refine (readCorners_chars sameSide).mpr ⟨?_, rfl⟩
      simpa [OneMark, Parts.corners] using hone

theorem chars_ne_nil (parts : Parts) : parts.chars ≠ [] := by
  obtain ⟨front, c, h, -⟩ := parts.exists_last
  rw [h]
  exact List.append_ne_nil_of_right_ne_nil _ (List.cons_ne_nil _ _)

/-- Readable parts are read as the area they denote, on the default sheet if they name none. -/
theorem readArea_chars (hread : parts.Readable) (hne : default ≠ "") :
    Reference.readArea parts.chars default =
      .ok (parts.denoted.on (parts.sheet?.getD default)) := by
  have hsplit : SheetName.splitCornersChars parts.chars = .ok (parts.sheet?, parts.body) :=
    splitCornersChars_chars.mpr ⟨hread.noColon, hread.sameSheets, rfl, rfl⟩
  have hsheet : (parts.sheet?.getD default).isEmpty = false := by
    rw [String.isEmpty_eq_false_iff]
    cases h : parts.sheet? with
    | none => exact hne
    | some name => exact sheet?_ne_empty name h
  simp only [Reference.readArea, bind_eq_ok, mapError_eq_ok, unless_eq_ok, pure_eq_ok]
  exact ⟨_, hsplit, Bool.eq_false_iff.mp hsheet, _, readCorners_body hread.oneMark, rfl⟩

/-- As a formula, parts give the area they denote on the sheet that the site finds for them. -/
theorem operand_expr {registry : Registry} (h : site.sheet? parts.sheet? = some sheet) :
    parts.expr.operand registry site = .done (.ofArea (parts.denoted.on sheet)) := by
  cases parts with
  | single qualifier corner isCell =>
      have h : site.sheet? (qualifier.map Qualifier.sheet) = some sheet := h
      simp only [expr, Expr.operand, h]
      rfl
  | pair qualifier first again second sameSide qualified =>
      have h : site.sheet? (qualifier.map Qualifier.sheet) = some sheet := h
      simp only [expr, Expr.operand, h]
      rfl

end Parts

end Formula

/-! ## The argument of `INDIRECT` -/

namespace Function

variable {site : Site} {args : List Argument} {s sheet : String} {area : Area}

/-- The arguments ask for the area that the text `s` shows in A1 style. -/
structure AsksInA1 (args : List Argument) (s : String) : Prop where
  text : args.head?.bind Argument.text? = some s
  inA1 : (args[1]?.bind Argument.bool?).getD true = true

/-- Text is read in the style asked for, and looked up as a name if it cannot be. What it is read as
is given in the spelling of the source. -/
theorem indirect_of_area {inA1 : Bool} (htext : args.head?.bind Argument.text? = some s)
    (hstyle : (args[1]?.bind Argument.bool?).getD true = inA1) (hne : trimChars s.toList ≠ [])
    {read : Except Fault Area}
    (hread : (if inA1 then Reference.readArea (trimChars s.toList) site.cell.sheet
      else Reference.readCountedArea (trimChars s.toList) site.cell) = read)
    (harea : read = .ok area ∨ (∃ fault, read = .error fault) ∧
      site.source.nameTarget? (String.ofList (trimChars s.toList)) = some area)
    (hsheet : site.source.sheetName? area.sheet = some sheet) :
    indirect site args = .ofArea { area with sheet } := by
  have hnonempty : (trimChars s.toList).isEmpty = false := List.isEmpty_eq_false_iff.mpr hne
  unfold indirect
  simp only [htext, hstyle, Option.getD_some, hnonempty, Bool.false_eq_true, if_false, hread]
  obtain rfl | ⟨⟨fault, rfl⟩, hname⟩ := harea
  · simp only [hsheet]
  · simp only [hname, hsheet]

/-- Text that is read as an area of a sheet gives this area, in the spelling of the source. -/
theorem indirect_of_readArea (hargs : AsksInA1 args s) (hne : trimChars s.toList ≠ [])
    (harea : Reference.readArea (trimChars s.toList) site.cell.sheet = .ok area)
    (hsheet : site.source.sheetName? area.sheet = some sheet) :
    indirect site args = .ofArea { area with sheet } :=
  indirect_of_area hargs.text hargs.inA1 hne (if_pos rfl) (.inl harea) hsheet

/-- With the built-in functions, a call with a literal text hands the text on as it is. -/
theorem operand_indirect (site : Site) (s : String) :
    (Formula.Expr.call "INDIRECT" [.literal (.text s)]).operand .builtins site =
      .done (indirect site [.value (.text s)]) := by
  have hget : Registry.builtins.get? "INDIRECT" =
      some ⟨"INDIRECT", 1, some 2, [.text, .bool], .reference indirect⟩ := by rfl
  simp only [Formula.Expr.operand, hget]
  rfl

end Function

/-! ## Both ways -/

namespace Formula

namespace Token

theorem Tiles.singleton {position : Nat} {cs : List Char} {token : Token}
    (h : Tiles position cs [token]) : token = ⟨token.kind, String.ofList cs, position⟩ := by
  cases h with
  | cons _ _ hrest =>
      cases hrest
      rw [List.append_nil]

/-- Text that is one token is the text of that token. -/
theorem ofText_singleton {s : String} {token : Token} (h : ofText s = .ok [token]) :
    token = ⟨token.kind, s, 0⟩ := by
  obtain ⟨tokens, htokens, htiles⟩ | ⟨m, -, -, hm, -, -⟩ := ofCharsFrom_tiles 0 s.toList
  · obtain rfl : tokens = [token] := Except.ok.inj (htokens.symm.trans h)
    rw [htiles.singleton, String.ofList_toList]
  · cases hm.symm.trans h

end Token

/-- **`INDIRECT` agrees with references.** Let text be one token of a reference and a formula, and
let the sheet it names exist, if it names one. At every cell in the grid of a sheet, the formula
gives an area, and so does `INDIRECT` of the text in A1 style, however it is called. The two areas
are of the same sheet, in whatever case it is spelled, and otherwise the same: the corners and the
kind. -/
theorem indirect_agrees {registry : Registry} {site : Site} {cell : CellAddress} {s : String}
    {token : Token} {e : Expr} (hcell : site.source.canonical site.cell = .ok cell)
    (htoken : Token.ofText s = .ok [token])
    (hkind : token.kind = .reference ∨ token.kind = .sheetReference)
    (he : Expr.ofText s = .ok e)
    (hsheet : ∀ name ∈ e.sheetPrefix?, site.source.sheetName? name ≠ none) :
    ∃ direct indirect : Area,
      e.operand registry site = .done (.ofArea direct) ∧
      (∀ args, Function.AsksInA1 args s → Function.indirect site args = .ofArea indirect) ∧
      (Expr.call "INDIRECT" [.literal (.text s)]).operand .builtins site =
        .done (.ofArea indirect) ∧
      site.source.sheetName? direct.sheet = some indirect.sheet ∧
      site.source.sheetName? indirect.sheet = some indirect.sheet ∧
      indirect = { direct with sheet := indirect.sheet } := by
  obtain ⟨⟨hne, -, -⟩, own, hown, -⟩ := Source.canonical_eq_ok.mp hcell
  -- the token has parts, and they are read both ways
  obtain ⟨parts, htext, hparts⟩ := Token.exists_parts htoken List.mem_cons_self hkind
  have hsingle := Token.ofText_singleton htoken
  obtain rfl : s = parts.text := by
    rw [← htext, hsingle]
  rw [hparts] at hsingle
  obtain ⟨hread, rfl⟩ := (Parts.exprOfText_text (hsingle ▸ htoken)).mp he
  -- the sheet that both come to, as the source spells it
  rw [Parts.sheetPrefix?_expr] at hsheet
  obtain ⟨sheet, stored, hsite, hdefault, hstored⟩ : ∃ sheet stored,
      site.sheet? parts.sheet? = some sheet ∧ parts.sheet?.getD site.cell.sheet = sheet ∧
        site.source.sheetName? sheet = some stored := by
    cases hnamed : parts.sheet? with
    | none => exact ⟨_, own, rfl, rfl, hown⟩
    | some name =>
        obtain ⟨stored, hstored⟩ := Option.ne_none_iff_exists'.mp (hsheet name hnamed)
        exact ⟨name, stored, by rw [Site.sheet?, hstored]; rfl, rfl, hstored⟩
  have htrim : trimChars parts.text.toList = parts.chars := by
    rw [Parts.text, String.toList_ofList, Parts.trimChars_chars]
  have harea := hdefault ▸ Parts.readArea_chars hread hne
  have hindirect (args : List Argument) (hargs : Function.AsksInA1 args parts.text) :
      Function.indirect site args = .ofArea (parts.denoted.on stored) :=
    Function.indirect_of_readArea hargs (htrim ▸ parts.chars_ne_nil) (htrim ▸ harea) hstored
  refine ⟨parts.denoted.on sheet, parts.denoted.on stored, Parts.operand_expr hsite, hindirect, ?_,
    hstored, Source.spells_of_sheetName? hstored, rfl⟩
  rw [Function.operand_indirect, hindirect _ ⟨rfl, rfl⟩]

/-- `SHEET1!$C:a`, whole columns with the later one in front. -/
def columnsOfSheet1 : Parts :=
  .pair (some .raisedSheet1) (.column true .upperC) none (.column false .lowerA) rfl nofun

/-- Whole columns of a sheet in another spelling. -/
theorem indirect_agrees_columns :
    let site : Site := ⟨{ workbook := .new }, ⟨"Sheet1", 5, 6⟩, 1⟩
    columnsOfSheet1.text = "SHEET1!$C:a" ∧
      columnsOfSheet1.expr.operand .builtins site =
        .done (.ofArea (Area.wholeColumns "SHEET1" 1 3)) ∧
      (Expr.call "INDIRECT" [.literal (.text columnsOfSheet1.text)]).operand .builtins site =
        .done (.ofArea (Area.wholeColumns "Sheet1" 1 3)) := by
  intro site
  have hcell : site.source.canonical site.cell = .ok site.cell := by rfl
  have htoken : Token.ofText columnsOfSheet1.text =
      .ok [⟨.sheetReference, columnsOfSheet1.text, 0⟩] := by
    refine Token.ofText_parts ?_
    rintro c ⟨⟩
    exact .inr (.inr (.inr (.inr (by decide))))
  have he : Expr.ofText columnsOfSheet1.text = .ok columnsOfSheet1.expr := by
    refine (Parts.exprOfText_text htoken).mpr ⟨⟨nofun, ?_, ?_⟩, rfl⟩
    · rintro qualifier ⟨⟩
      decide
    · simp [Parts.OneMark, columnsOfSheet1, Parts.corners, Corner.rowMarks]
  have hstored : site.source.sheetName? "SHEET1" = some "Sheet1" := by decide
  have hsheet : ∀ name ∈ columnsOfSheet1.expr.sheetPrefix?,
      site.source.sheetName? name ≠ none := by
    rintro name ⟨⟩
    exact Option.ne_none_iff_exists'.mpr ⟨_, hstored⟩
  obtain ⟨direct, indirect, hdirect, -, hcall, hstored', -, hsame⟩ :=
    @indirect_agrees .builtins _ _ _ _ _ hcell htoken (.inr rfl) he hsheet
  have hcolumns : columnsOfSheet1.expr.operand .builtins site =
      .done (.ofArea (Area.wholeColumns "SHEET1" 1 3)) := by rfl
  obtain rfl : direct = Area.wholeColumns "SHEET1" 1 3 := by
    cases hdirect.symm.trans hcolumns
    rfl
  have hname : indirect.sheet = "Sheet1" := Option.some.inj (hstored'.symm.trans hstored)
  refine ⟨by decide, hcolumns, ?_⟩
  rw [hcall, hsame, hname]
  rfl

end Formula

end Spreadsheet
