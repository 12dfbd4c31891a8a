-- SUMMARY: Areas that differ in the spelling of their sheets only, and functions blind to it.
import Spreadsheet.Proofs.Area
import Spreadsheet.Proofs.Function
import Spreadsheet.Proofs.Source

/-!
# The spelling of sheets

Two spellings of a sheet lead to the same cells, which hold the same. Areas on them have the same
shape, and what functions tell about them is the same. Only where two areas are joined are the
spellings compared.
-/

namespace Spreadsheet

/-! ## Sheets and cells -/

namespace Source

variable {source : Source} {name name' : String} {c d : CellAddress}

/-- Both are names of one sheet. -/
def SameSheet (source : Source) (name name' : String) : Prop :=
  ∃ sheet, source.sheetName? name = some sheet ∧ source.sheetName? name' = some sheet

theorem SameSheet.symm (h : source.SameSheet name name') : source.SameSheet name' name := by
  obtain ⟨sheet, hname, hname'⟩ := h
  exact ⟨sheet, hname', hname⟩

theorem SameSheet.trans {name'' : String} (h : source.SameSheet name name')
    (h' : source.SameSheet name' name'') : source.SameSheet name name'' := by
  obtain ⟨sheet, hname, hname'⟩ := h
  obtain ⟨sheet', hsheet', hname''⟩ := h'
  obtain rfl : sheet = sheet' := Option.some.inj (hname'.symm.trans hsheet')
  exact ⟨sheet, hname, hname''⟩

theorem sheetName?_stored (hstored : source.asAsked = false) (name : String) :
    source.sheetName? name = source.workbook.sheetName? name := by
  simp only [sheetName?, hstored, Bool.false_eq_true, if_false]

/-- A name of a sheet is that of a sheet in the workbook, in whatever case. -/
theorem exists_sheet? {stored : String} (h : source.sheetName? name = some stored) :
    ∃ sheet, source.workbook.sheet? name = some sheet ∧ Text.equalIgnoringCase stored name := by
  unfold sheetName? at h
  split at h
  · split at h
    · rename_i hsheet
      cases h
      obtain ⟨sheet, hsheet⟩ := Option.isSome_iff_exists.mp hsheet
      exact ⟨sheet, hsheet, Text.equalIgnoringCase_refl _⟩
    · cases h
  · obtain ⟨sheet, hsheet, rfl⟩ := Option.map_eq_some_iff.mp h
    exact ⟨sheet, hsheet, Workbook.equal_of_sheet? hsheet⟩

theorem SameSheet.equal (h : source.SameSheet name name') :
    Text.equalIgnoringCase name name' := by
  obtain ⟨sheet, hname, hname'⟩ := h
  obtain ⟨-, -, hequal⟩ := exists_sheet? hname
  obtain ⟨-, -, hequal'⟩ := exists_sheet? hname'
  exact Text.equalIgnoringCase_trans (Text.equalIgnoringCase_symm hequal) hequal'

theorem sheetName?_eq_of_equal (hstored : source.asAsked = false)
    (h : Text.equalIgnoringCase name name') :
    source.sheetName? name = source.sheetName? name' := by
  rw [sheetName?_stored hstored, sheetName?_stored hstored, Workbook.sheetName?,
    Workbook.sheetName?, Workbook.sheet?_eq_of_equal h]

theorem SameSheet.extent (h : source.SameSheet name name') :
    source.extent name' = source.extent name := by
  rw [Source.extent, Source.extent, Workbook.extent?, Workbook.extent?,
    Workbook.sheet?_eq_of_equal h.equal]

theorem isEmpty_of_equal (h : Text.equalIgnoringCase name name') :
    name'.isEmpty = name.isEmpty := by
  have hlength := congrArg List.length (Text.equalIgnoringCase_iff.mp h)
  simp only [List.length_map] at hlength
  rw [Bool.eq_iff_iff, String.isEmpty_iff, String.isEmpty_iff, ← String.toList_eq_nil_iff,
    ← String.toList_eq_nil_iff, ← List.length_eq_zero_iff, ← List.length_eq_zero_iff, hlength]

/-- What is read of a cell does not depend on how its sheet is spelled. -/
theorem SameCell.read (h : source.SameCell c d) :
    source.workbook.read d = source.workbook.read c := by
  obtain ⟨sheet, row, col⟩ := c
  obtain ⟨sheet', row', col'⟩ := d
  obtain ⟨hsheet, rfl, rfl⟩ := h
  have hequal : Text.equalIgnoringCase sheet sheet' := SameSheet.equal hsheet
  have hfind := @Workbook.sheet?_eq_of_equal source.workbook _ _ hequal
  obtain ⟨stored, hname, -⟩ := hsheet
  obtain ⟨found, hfound, -⟩ := exists_sheet? hname
  simp only [Workbook.read, CellAddress.checkBounds, isEmpty_of_equal hequal, ← hfind, hfound]

end Source

/-! ## Areas -/

/-- The same place under another name of its sheet. -/
def CellAddress.renamed (c : CellAddress) (sheet : String) : CellAddress := { c with sheet }

namespace Area

variable (area : Area) (sheet : String)

/-- The same rectangle under another name of its sheet. -/
def renamed (area : Area) (sheet : String) : Area := { area with sheet }

@[simp] theorem sheet_renamed : (area.renamed sheet).sheet = sheet := rfl

@[simp] theorem height_renamed : (area.renamed sheet).height = area.height := rfl

@[simp] theorem width_renamed : (area.renamed sheet).width = area.width := rfl

@[simp] theorem size_renamed : (area.renamed sheet).size = area.size := rfl

@[simp] theorem isSingleCell_renamed : (area.renamed sheet).isSingleCell = area.isSingleCell := rfl

@[simp] theorem topLeft_renamed : (area.renamed sheet).topLeft = area.topLeft.renamed sheet := rfl

@[simp] theorem cellAt_renamed (i : Nat) :
    (area.renamed sheet).cellAt i = (area.cellAt i).renamed sheet := rfl

theorem clip_renamed (rows cols : Nat) :
    (area.renamed sheet).clip rows cols = (area.clip rows cols).renamed sheet := by
  obtain ⟨_, _, _, _, _, kind⟩ := area
  cases kind <;> rfl

theorem within?_renamed (rows cols : Nat) :
    (area.renamed sheet).within? rows cols = (area.within? rows cols).map (·.renamed sheet) := by
  by_cases h : rows < area.top ∨ cols < area.left
  · rw [within?, within?, if_pos h]
    exact if_pos h
  · rw [within?, within?, if_neg h]
    exact if_neg h

theorem sheet_of_within? {area used : Area} {rows cols : Nat}
    (h : area.within? rows cols = some used) : used.sheet = area.sheet := by
  unfold within? at h
  split at h
  · cases h
  · cases h
    rfl

/-- An area contains the cells under the name it has itself. -/
theorem contains_renamed {c : CellAddress} (h : c.sheet = area.sheet) :
    (area.renamed sheet).contains (c.renamed sheet) = area.contains c := by
  rw [Bool.eq_iff_iff, contains_iff, contains_iff]
  exact and_congr_left' ⟨fun _ => h, fun _ => rfl⟩

theorem sliceOfArea_renamed (part : Function.Slice) :
    Function.sliceOfArea (area.renamed sheet) part =
      (Function.sliceOfArea area part).renamed sheet := by
  cases part <;> rfl

theorem offsetCell_renamed (base : CellAddress) (dRow dCol height width : Int) :
    offsetCell (base.renamed sheet) dRow dCol height width =
      (offsetCell base dRow dCol height width).map (·.renamed sheet) := by
  unfold offsetCell
  dsimp only [CellAddress.renamed]
  split
  · rfl
  · split
    · split
      · rfl
      · split <;> rfl
    · rfl

theorem offset_renamed (dRow dCol : Int) (height width : Option Int) :
    (area.renamed sheet).offset dRow dCol height width =
      (area.offset dRow dCol height width).map (·.renamed sheet) := by
  unfold offset
  rw [topLeft_renamed, offsetCell_renamed]
  simp only [height_renamed, width_renamed]
  cases offsetCell area.topLeft dRow dCol (height.getD area.height) (width.getD area.width) with
  | error fault => rfl
  | ok moved => rfl

end Area

/-- The same area, in whatever case its sheet is spelled. -/
def Source.SameArea (source : Source) (area area' : Area) : Prop :=
  ∃ sheet, source.SameSheet area.sheet sheet ∧ area' = area.renamed sheet

/-! ## Operands and arguments -/

theorem rel_getElem? {α β : Type} {R : α → β → Prop} {as : List α} {bs : List β}
    (h : List.Forall₂ R as bs) (i : Nat) : Option.Rel R as[i]? bs[i]? := by
  induction h generalizing i with
  | nil => exact .none
  | cons hab _ ih =>
      cases i with
      | zero => exact .some hab
      | succ i => exact ih i

namespace Operand

variable {source : Source} {o o' : Operand}

/-- The same operand, in whatever case the sheets of its areas are spelled. -/
inductive Respelled (source : Source) : Operand → Operand → Prop where
  | value (v : Value) : Respelled source (.value v) (.value v)
  | reference {areas areas' : List Area} : List.Forall₂ source.SameArea areas areas' →
      Respelled source (.reference ⟨areas⟩) (.reference ⟨areas'⟩)

theorem Respelled.ofArea {area area' : Area} (h : source.SameArea area area') :
    Respelled source (.ofArea area) (.ofArea area') :=
  .reference (.cons h .nil)

/-- Where one area is asked for, both operands have one, or they give the same error. -/
theorem Respelled.area (h : Respelled source o o') :
    (∃ e, o.area = .error e ∧ o'.area = .error e) ∨
      ∃ area area', o.area = .ok area ∧ o'.area = .ok area' ∧ source.SameArea area area' := by
  cases h with
  | value v =>
      cases h : (Operand.value v).area with
      | error e => exact .inl ⟨e, rfl, rfl⟩
      | ok area => cases area_eq_ok.mp h
  | reference hareas =>
      cases hareas with
      | nil => exact .inl ⟨.value, rfl, rfl⟩
      | cons harea hrest =>
          cases hrest with
          | nil => exact .inr ⟨_, _, rfl, rfl, harea⟩
          | cons _ _ => exact .inl ⟨.value, rfl, rfl⟩

/-- If both operands are areas of one sheet, they spell it alike. -/
def JoinAlike (source : Source) (a b : Operand) : Prop :=
  ∀ x y, a = .ofArea x → b = .ofArea y → source.SameSheet x.sheet y.sheet → x.sheet = y.sheet

/-- Joining compares the spellings, so it takes operands that spell their sheet alike. -/
theorem Respelled.between {a a' b b' : Operand} (ha : Respelled source a a')
    (hb : Respelled source b b') (hjoin : JoinAlike source a b) (hjoin' : JoinAlike source a' b') :
    Respelled source (a.between b) (a'.between b') := by
  obtain ⟨e, ha, ha'⟩ | ⟨x, x', ha, ha', s, hs, rfl⟩ := ha.area
  · simp only [Operand.between, ha, ha']
    exact .value _
  obtain ⟨e, hb, hb'⟩ | ⟨y, y', hb, hb', t, ht, rfl⟩ := hb.area
  · simp only [Operand.between, ha, ha', hb, hb']
    exact .value _
  have hsheets := hjoin x y (area_eq_ok.mp ha) (area_eq_ok.mp hb)
  have hsheets' : source.SameSheet s t → s = t :=
    hjoin' _ _ (area_eq_ok.mp ha') (area_eq_ok.mp hb')
  simp only [Operand.between, ha, ha', hb, hb', Area.bounding]
  by_cases h : x.sheet = y.sheet
  · obtain rfl := hsheets' (hs.symm.trans (h ▸ ht))
    rw [if_pos h]
    simp only [Area.sheet_renamed, if_true]
    exact .ofArea ⟨s, hs, rfl⟩
  · have h' : s ≠ t := fun hst => h (hsheets (hs.trans (hst ▸ ht.symm)))
    rw [if_neg h, Area.sheet_renamed, Area.sheet_renamed, if_neg h']
    exact .value _

end Operand

namespace Argument

variable {source : Source} {args args' : List Argument} {i : Nat}

/-- The same argument, in whatever case the sheets of a reference are spelled. -/
inductive Respelled (source : Source) : Argument → Argument → Prop where
  | value (v : Value) : Respelled source (.value v) (.value v)
  | areas (tables : List Table) : Respelled source (.areas tables) (.areas tables)
  | lazy : Respelled source .lazy .lazy
  | reference {areas areas' : List Area} : List.Forall₂ source.SameArea areas areas' →
      Respelled source (.reference ⟨areas⟩) (.reference ⟨areas'⟩)

theorem head?_respelled (h : List.Forall₂ (Respelled source) args args') :
    Option.Rel (Respelled source) args.head? args'.head? := by
  cases h with
  | nil => exact .none
  | cons harg _ => exact .some harg

end Argument

/-! ## Functions -/

/-- The sites are in the same cell of the same source, in whatever case its sheet is spelled. -/
structure Site.Near (site site' : Site) : Prop where
  source : site'.source = site.source
  cell : site.source.SameCell site.cell site'.cell

namespace Function

variable {source : Source} {site site' : Site} {args args' : List Argument}
  {arg? arg?' : Option Argument}

/-- References that differ in the spelling of sheets only make no difference to a function but for
the spelling of what it gives. -/
def Blind (f : Function) : Prop :=
  match f.implementation with
  | .pure g => .reference ∈ f.params →
    ∀ source args args', List.Forall₂ (Argument.Respelled source) args args' → g args = g args'
  | .contextual g =>
    ∀ site site' args args', Site.Near site site' →
      List.Forall₂ (Argument.Respelled site.source) args args' →
      (.reference ∉ f.params → args = args') → g site args = g site' args'
  | .reference g =>
    ∀ site site' args args', Site.Near site site' →
      List.Forall₂ (Argument.Respelled site.source) args args' →
      (.reference ∉ f.params → args = args') →
      (g site args).Respelled site.source (g site' args')
  | .abort => True

/-- Where an argument has to be one area, it is one in both spellings, or the error is the same. -/
theorem areaArg_respelled (h : Option.Rel (Argument.Respelled source) arg? arg?') :
    (∃ e, areaArg arg? = .error e ∧ areaArg arg?' = .error e) ∨
      ∃ area area', areaArg arg? = .ok area ∧ areaArg arg?' = .ok area' ∧
        source.SameArea area area' := by
  cases h with
  | none => exact .inl ⟨.value, rfl, rfl⟩
  | some harg =>
      cases harg with
      | value v => exact (Operand.Respelled.value v).area
      | areas | lazy => exact .inl ⟨.value, rfl, rfl⟩
      | reference hareas => exact (Operand.Respelled.reference hareas).area

theorem number?_respelled (h : Option.Rel (Argument.Respelled source) arg? arg?') :
    arg?.bind Argument.number? = arg?'.bind Argument.number? := by
  cases h with
  | none => rfl
  | some harg => cases harg <;> rfl

theorem wholeArg?_respelled (h : List.Forall₂ (Argument.Respelled source) args args') (i : Nat) :
    wholeArg? args i = wholeArg? args' i := by
  rw [wholeArg?, wholeArg?, number?_respelled (rel_getElem? h i)]

/-! ### References from references -/

theorem offset_respelled (h : List.Forall₂ (Argument.Respelled source) args args') :
    (offset site args).Respelled source (offset site' args') := by
  unfold offset
  rw [wholeArg?_respelled h, wholeArg?_respelled h, wholeArg?_respelled h, wholeArg?_respelled h]
  obtain ⟨e, hbase, hbase'⟩ | ⟨base, base', hbase, hbase', sheet, hsheet, rfl⟩ :=
    areaArg_respelled (Argument.head?_respelled h)
  · rw [hbase, hbase']
    exact .value _
  · rw [hbase, hbase']
    dsimp only
    rw [Area.offset_renamed]
    cases hoffset : base.offset ((wholeArg? args' 1).getD 0) ((wholeArg? args' 2).getD 0)
        (wholeArg? args' 3) (wholeArg? args' 4) with
    | error fault => exact .value _
    | ok area =>
        have hkept : area.sheet = base.sheet := (Area.offset_eq_ok hoffset).2
        exact .ofArea ⟨sheet, hkept ▸ hsheet, rfl⟩

theorem index_respelled (h : List.Forall₂ (Argument.Respelled source) args args') :
    (index site args).Respelled source (index site' args') := by
  unfold index
  rw [wholeArg?_respelled h, wholeArg?_respelled h, wholeArg?_respelled h]
  generalize wholeArg? args' 1 = rowNum?
  generalize wholeArg? args' 2 = colNum?
  generalize wholeArg? args' 3 = areaNum?
  have hhead := Argument.head?_respelled h
  generalize args.head? = arg?, args'.head? = arg?' at hhead
  cases hhead with
  | none => exact .value _
  | some harg =>
      cases harg with
      | value v =>
          split
          · rename_i heq
            cases heq
          · exact .value _
          · dsimp only
            split
            · exact .value _
            · split <;> exact .value _
          · exact .value _
      | areas | lazy => exact .value _
      | @reference areas areas' hareas =>
          dsimp only
          generalize (areaNum?.getD 1 - 1).toNat = place
          split
          · exact .value _
          · have harea := rel_getElem? hareas place
            generalize areas[place]? = area?, areas'[place]? = area?' at harea ⊢
            cases harea with
            | none => exact .value _
            | some harea =>
                obtain ⟨sheet, hsheet, rfl⟩ := harea
                dsimp only
                rw [Area.height_renamed, Area.width_renamed]
                -- the size of an area does not depend on its sheet, so the same part is taken
                split
                · rename_i part _
                  rw [Area.sliceOfArea_renamed]
                  exact .ofArea ⟨sheet, by cases part <;> exact hsheet, rfl⟩
                · exact .value _

/-! ### Facts about references -/

theorem positionOf_respelled (hsite : site.Near site') {ofCell : CellAddress → Nat}
    (hcell : ∀ c d : CellAddress, c.row = d.row → c.col = d.col → ofCell c = ofCell d)
    (h : List.Forall₂ (Argument.Respelled site.source) args args') :
    positionOf ofCell site args = positionOf ofCell site' args' := by
  unfold positionOf
  cases h with
  | nil =>
      obtain ⟨-, hrow, hcol⟩ := hsite.cell
      dsimp only [List.head?_nil]
      rw [hcell _ _ hrow hcol]
  | cons harg _ =>
      dsimp only [List.head?_cons]
      obtain ⟨e, harea, harea'⟩ | ⟨area, _, harea, harea', sheet, -, rfl⟩ :=
        areaArg_respelled (.some harg)
      · rw [harea, harea']
      · rw [harea, harea']
        dsimp only
        rw [hcell (area.renamed sheet).topLeft area.topLeft rfl rfl]

theorem sizeValue_respelled (part : Nat × Nat → Nat)
    (h : List.Forall₂ (Argument.Respelled source) args args') :
    sizeValue part args = sizeValue part args' := by
  unfold sizeValue
  cases h with
  | nil => rfl
  | cons harg _ =>
      cases harg with
      | value v => rfl
      | areas | lazy => rfl
      | reference hareas =>
          dsimp only [List.head?_cons, sizeOf]
          obtain ⟨e, harea, harea'⟩ | ⟨area, _, harea, harea', sheet, -, rfl⟩ :=
            areaArg_respelled (.some (.reference hareas))
          · rw [harea, harea']
          · rw [harea, harea']
            rfl

theorem areas_respelled (h : List.Forall₂ (Argument.Respelled source) args args') :
    areas args = areas args' := by
  unfold areas
  cases h with
  | nil => rfl
  | cons harg _ =>
      cases harg with
      | value v => rfl
      | areas | lazy => rfl
      | reference hareas =>
          dsimp only [List.head?_cons]
          rw [hareas.length_eq]

theorem isReference_respelled (h : List.Forall₂ (Argument.Respelled source) args args') :
    isReference args = isReference args' := by
  unfold isReference
  cases h with
  | nil => rfl
  | cons harg _ => cases harg <;> rfl

end Function

/-! ### References from text -/

namespace Reference

variable {cs : List Char} {sheet sheet' : String}

/-- Both readings fail, or they give the same area, or areas on the two sheets by default. -/
inductive ReadAlike (sheet sheet' : String) : Except Fault Area → Except Fault Area → Prop where
  | error (fault fault' : Fault) : ReadAlike sheet sheet' (.error fault) (.error fault')
  | named (area : Area) : ReadAlike sheet sheet' (.ok area) (.ok area)
  | default {area : Area} : area.sheet = sheet →
      ReadAlike sheet sheet' (.ok area) (.ok (area.renamed sheet'))

theorem ReadAlike.refl (read : Except Fault Area) : ReadAlike sheet sheet' read read := by
  cases read with
  | error fault => exact .error _ _
  | ok area => exact .named area

theorem readArea_alike (h : sheet'.isEmpty = sheet.isEmpty) :
    ReadAlike sheet sheet' (readArea cs sheet) (readArea cs sheet') := by
  unfold readArea
  cases SheetName.splitCornersChars cs with
  | error cause => exact .error _ _
  | ok split =>
      obtain ⟨named, body⟩ := split
      cases named with
      | some name => exact .refl _
      | none =>
          dsimp only [Except.mapError, bind, Except.bind, Option.getD_none]
          by_cases hempty : sheet.isEmpty = true
          · rw [if_pos hempty, if_pos (h.trans hempty)]
            exact .error _ _
          · rw [if_neg hempty, if_neg (h ▸ hempty)]
            cases readCorners body with
            | error cause => exact .error _ _
            | ok corners => exact .default rfl

theorem readCountedArea_alike {base base' : CellAddress} (hrow : base.row = base'.row)
    (hcol : base.col = base'.col) :
    ReadAlike base.sheet base'.sheet (readCountedArea cs base) (readCountedArea cs base') := by
  obtain ⟨sheet, row, col⟩ := base
  obtain ⟨sheet', _, _⟩ := base'
  cases hrow
  cases hcol
  have hcell (cs : List Char) :
      readRowCol? cs ⟨sheet', row, col⟩ = readRowCol? cs ⟨sheet, row, col⟩ := rfl
  have hrow (cs : List Char) :
      readCountedRow? cs ⟨sheet', row, col⟩ = readCountedRow? cs ⟨sheet, row, col⟩ := rfl
  have hcol (cs : List Char) :
      readCountedCol? cs ⟨sheet', row, col⟩ = readCountedCol? cs ⟨sheet, row, col⟩ := rfl
  unfold readCountedArea
  simp only [hcell, hrow, hcol]
  cases SheetName.splitCornersChars cs with
  | error cause => exact .error _ _
  | ok split =>
      obtain ⟨named, body⟩ := split
      cases named with
      -- with a sheet in front of it the base's does not count
      | some name => exact .refl _
      | none =>
          dsimp only [Except.mapError, bind, Except.bind, Option.getD_none, cellInGrid]
          split
          · rename_i row₁ col₁ row₂ col₂ _ _
            by_cases hfirst : Grid.HasRow row₁ ∧ Grid.HasCol col₁
            · by_cases hsecond : Grid.HasRow row₂ ∧ Grid.HasCol col₂
              · rw [if_pos hfirst, if_pos hfirst, if_pos hsecond, if_pos hsecond]
                exact .default rfl
              · rw [if_pos hfirst, if_pos hfirst, if_neg hsecond, if_neg hsecond]
                exact .error _ _
            · rw [if_neg hfirst, if_neg hfirst]
              exact .error _ _
          · split
            · split
              · exact .error _ _
              · split
                · exact .error _ _
                · exact .default rfl
            · split
              · split
                · exact .error _ _
                · split
                  · exact .error _ _
                  · exact .default rfl
              · exact .error _ _

end Reference

/-- The area under the stored name of its sheet, or an error if there is no such sheet. -/
def Source.asStored (source : Source) (missing : ErrorValue) (area : Area) : Operand :=
  match source.sheetName? area.sheet with
  | some sheet => .ofArea { area with sheet }
  | none => .error missing

theorem Source.asStored_respelled {source : Source} {missing : ErrorValue} {area : Area}
    {sheet : String} (h : source.sheetName? sheet = source.sheetName? area.sheet) :
    (source.asStored missing area).Respelled source
      (source.asStored missing (area.renamed sheet)) := by
  rw [asStored, asStored, Area.sheet_renamed, h]
  split
  · rename_i stored hstored
    have hspells : source.sheetName? stored = some stored := spells_of_sheetName? hstored
    exact .ofArea ⟨stored, ⟨stored, hspells, hspells⟩, rfl⟩
  · exact .value _

variable {site site' : Site}

theorem Site.named_respelled (h : site.Near site') (word : String) :
    (site.named word).Respelled site.source (site'.named word) := by
  unfold named
  rw [h.source]
  split
  · exact .value _
  · exact Source.asStored_respelled rfl

/-- What `INDIRECT` gives is spelled as it is stored. -/
theorem Function.indirect_respelled (h : site.Near site') (args : List Argument) :
    (indirect site args).Respelled site.source (indirect site' args) := by
  obtain ⟨hown, hrow, hcol⟩ := h.cell
  unfold indirect
  rw [h.source]
  dsimp only
  generalize Text.trimChars ((args.head?.bind Argument.text?).getD "").toList = text
  generalize (args[1]?.bind Argument.bool?).getD true = inA1
  split
  · exact .value _
  · have hread : Reference.ReadAlike site.cell.sheet site'.cell.sheet
        (if inA1 then Reference.readArea text site.cell.sheet
          else Reference.readCountedArea text site.cell)
        (if inA1 then Reference.readArea text site'.cell.sheet
          else Reference.readCountedArea text site'.cell) := by
      split
      · exact Reference.readArea_alike (Source.isEmpty_of_equal (Source.SameSheet.equal hown))
      · exact Reference.readCountedArea_alike hrow hcol
    generalize (if inA1 = true then Reference.readArea text site.cell.sheet
      else Reference.readCountedArea text site.cell) = read at hread ⊢
    generalize (if inA1 = true then Reference.readArea text site'.cell.sheet
      else Reference.readCountedArea text site'.cell) = read' at hread ⊢
    cases hread with
    | error fault fault' =>
        dsimp only
        split
        · exact .value _
        · exact Source.asStored_respelled rfl
    | named area => exact Source.asStored_respelled rfl
    | @default area harea =>
        obtain ⟨sheet, hsheet, hsheet'⟩ := hown
        exact Source.asStored_respelled (by rw [hsheet', harea, hsheet])

/-! ### The built-in functions -/

theorem Registry.builtins_blind : ∀ f ∈ Registry.builtins.functions, f.Blind := by
  have hpure (name : String) (least : Nat) (most : Option Nat) (params : List ParamKind)
      (g : List Argument → Value) (h : .reference ∉ params) :
      Function.Blind ⟨name, least, most, params, .pure g⟩ := fun hmem => absurd hmem h
  simp only [builtins, List.forall_mem_append]
  refine ⟨⟨⟨?_, ?_⟩, ?_⟩, ?_⟩
  · simp only [references, List.forall_mem_cons, List.not_mem_nil, false_implies, implies_true,
      and_true]
    refine ⟨?_, ?_, ?_, ?_, ?_, ?_, ?_, ?_, ?_⟩
    · exact fun _ _ _ _ _ h _ => Function.offset_respelled h
    · exact fun _ _ _ _ _ h _ => Function.index_respelled h
    · exact fun _ _ args _ hsite _ h => h (by decide) ▸ Function.indirect_respelled hsite args
    · exact fun _ _ _ _ hsite h _ => Function.positionOf_respelled hsite (fun _ _ hrow _ => hrow) h
    · exact fun _ _ _ _ hsite h _ => Function.positionOf_respelled hsite (fun _ _ _ hcol => hcol) h
    · exact fun _ _ _ _ h => Function.sizeValue_respelled _ h
    · exact fun _ _ _ _ h => Function.sizeValue_respelled _ h
    · exact fun _ _ _ _ h => Function.areas_respelled h
    · exact hpure _ _ _ _ _ (by decide)
  · simp only [logic, List.forall_mem_cons, List.not_mem_nil, false_implies, implies_true,
      and_true]
    refine ⟨?_, ?_, ?_, ?_, ?_, ?_⟩
    · exact fun _ _ _ _ _ _ h => h (by decide) ▸ rfl
    · exact hpure _ _ _ _ _ (by decide)
    · exact hpure _ _ _ _ _ (by decide)
    · exact hpure _ _ _ _ _ (by decide)
    · exact fun _ _ _ _ _ _ h => h (by decide) ▸ rfl
    · exact fun _ _ _ _ _ _ h => h (by decide) ▸ rfl
  · simp only [information, List.forall_mem_cons, List.not_mem_nil, false_implies, implies_true,
      and_true]
    refine ⟨?_, ?_, ?_, ?_, ?_, ?_, ?_, ?_, ?_⟩
    · exact hpure _ _ _ _ _ (by decide)
    · exact hpure _ _ _ _ _ (by decide)
    · exact hpure _ _ _ _ _ (by decide)
    · exact hpure _ _ _ _ _ (by decide)
    · exact hpure _ _ _ _ _ (by decide)
    · exact hpure _ _ _ _ _ (by decide)
    · exact hpure _ _ _ _ _ (by decide)
    · exact fun _ _ _ _ h => Function.isReference_respelled h
    · exact hpure _ _ _ _ _ (by decide)
  · simp only [aggregates, List.forall_mem_cons, List.not_mem_nil, false_implies, implies_true,
      and_true]
    refine ⟨?_, ?_, ?_, ?_, ?_, ?_⟩
    all_goals exact hpure _ _ _ _ _ (by decide)

end Spreadsheet
