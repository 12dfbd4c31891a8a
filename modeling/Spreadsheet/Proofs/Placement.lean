-- SUMMARY: Placed areas: on a named sheet, in the grid and of a fitting kind, however made.
import Spreadsheet.Proofs.ReferenceText

/-!
# Placed areas

An area is placed if its sheet has a name, its corners are in order in the grid, and its kind
fits: whole columns have all rows and whole rows all columns. Whatever text an area is read from,
it is placed, and so is every area that is made from placed ones.
-/

namespace Spreadsheet

/-! ## The whole grid -/

namespace Grid

theorem allRows : min 1 maxRows = 1 ∧ max 1 maxRows = maxRows := by decide

theorem allCols : min 1 maxCols = 1 ∧ max 1 maxCols = maxCols := by decide

end Grid

/-! ## Corners -/

/-- Corners in order in the grid whose kind fits them. -/
structure Corners.WellFormed (corners : Corners) : Prop extends corners.InGrid where
  wholeColumns : corners.kind = .columns → corners.first.row = 1 ∧ corners.last.row = Grid.maxRows
  wholeRows : corners.kind = .rows → corners.first.col = 1 ∧ corners.last.col = Grid.maxCols

theorem Corners.WellFormed.on {corners : Corners} (h : corners.WellFormed) (sheet : String) :
    (corners.on sheet).WellFormed :=
  ⟨h.toInGrid.on sheet, h.wholeColumns, h.wholeRows⟩

/-- The corners of one cell are the cell. -/
theorem Corners.WellFormed.ofCoord {coord : Coord} (h : coord.InGrid) :
    Corners.WellFormed ⟨coord, coord, .cells⟩ where
  first := h.positive
  rows := Nat.le_refl _
  cols := Nat.le_refl _
  bottom_le := Int.ofNat_le.mp h.1.2
  right_le := Int.ofNat_le.mp h.2.2
  wholeColumns := nofun
  wholeRows := nofun

namespace Reference

variable {cs first second : List Char} {corners : Corners} {sheet : String} {area : Area}

theorem wellFormed_of_readSides? (h : readSides? first second = some corners) :
    corners.WellFormed := by
  have hgrid := inGrid_of_readSides? h
  unfold readSides? at h
  split at h
  · cases h
    exact ⟨hgrid, nofun, nofun⟩
  · split at h
    · cases h
      exact ⟨hgrid, fun _ => Grid.allRows, nofun⟩
    · split at h
      · cases h
        exact ⟨hgrid, nofun, fun _ => Grid.allCols⟩
      · cases h

theorem wellFormed_of_readCorners (h : readCorners cs = .ok corners) : corners.WellFormed := by
  unfold readCorners at h
  dsimp only at h
  split at h
  · rename_i corners' hcorners
    cases h
    split at hcorners
    · obtain ⟨coord, hcoord, rfl⟩ := Option.map_eq_some_iff.mp hcorners
      exact .ofCoord (inGrid_of_readCoord? hcoord)
    · exact wellFormed_of_readSides? hcorners
  · cases h

end Reference

/-! ## Sheets in front of references -/

namespace SheetName

variable {cs body : List Char} {named : Option String}

/-- A sheet that is named in front of a reference has a name. -/
theorem ne_empty_of_splitChars (h : splitChars cs = .ok (named, body)) :
    ∀ name ∈ named, name ≠ "" := by
  unfold splitChars at h
  dsimp only at h
  split at h
  · split at h
    · cases h
    · cases h
      rintro name ⟨⟩
      simp
    · cases h
  · split at h
    · cases h
      exact nofun
    · cases h
    · rename_i name body' hne hlast
      cases h
      rintro - ⟨⟩ hempty
      obtain rfl := String.ofList_eq_empty_iff.mp hempty
      exact hne rfl

theorem ne_empty_of_splitCornersChars (h : splitCornersChars cs = .ok (named, body)) :
    ∀ name ∈ named, name ≠ "" := by
  unfold splitCornersChars at h
  dsimp only at h
  split at h
  · exact ne_empty_of_splitChars h
  · simp only [bind_eq_ok, unless_eq_ok, pure_eq_ok, Prod.mk.injEq] at h
    obtain ⟨⟨named', first⟩, hfirst, -, -, -, rfl, -⟩ := h
    exact ne_empty_of_splitChars hfirst

end SheetName

/-! ## Placed areas -/

namespace Area

/-- The area has a sheet with a name, corners in order in the grid and a kind that fits. Both
corners are on the one sheet that an area has. -/
structure Placed (area : Area) : Prop extends area.WellFormed where
  sheet_ne : area.sheet ≠ ""

variable {area a b : Area} {c : CellAddress} {sheet : String} {rows cols : Nat}

/-- A block of cells has no kind to fit. -/
theorem WellFormed.ofCells (h : area.InGrid) (hkind : area.kind = .cells) : area.WellFormed where
  toInGrid := h
  wholeColumns hcolumns := nomatch hkind.symm.trans hcolumns
  wholeRows hrows := nomatch hkind.symm.trans hrows

theorem Placed.ofCell (hrow : Grid.HasRow c.row) (hcol : Grid.HasCol c.col)
    (hsheet : c.sheet ≠ "") : (ofCell c).Placed :=
  ⟨.ofCells (.ofCell hrow hcol) rfl, hsheet⟩

theorem Placed.move (h : area.Placed) (hsheet : sheet ≠ "") : Placed { area with sheet } :=
  ⟨⟨h.toInGrid.move sheet, h.wholeColumns, h.wholeRows⟩, hsheet⟩

/-- Where both have the whole height, or the whole width, the area around them has it too. -/
theorem Placed.bounding (ha : a.Placed) (hb : b.Placed) (h : a.bounding b = .ok area) :
    area.Placed := by
  have hgrid := ha.toInGrid.bounding hb.toInGrid h
  unfold Area.bounding at h
  split at h
  · cases h
    have hboth (kind : AreaKind) (hne : kind ≠ .cells)
        (h : (if a.kind = b.kind then a.kind else .cells) = kind) :
        a.kind = kind ∧ b.kind = kind := by grind
    refine ⟨⟨hgrid, fun hkind => ?_, fun hkind => ?_⟩, ha.sheet_ne⟩
    · obtain ⟨hkind, hkind'⟩ := hboth .columns nofun hkind
      obtain ⟨htop, hbottom⟩ := ha.wholeColumns hkind
      obtain ⟨htop', hbottom'⟩ := hb.wholeColumns hkind'
      simp [htop, hbottom, htop', hbottom']
    · obtain ⟨hkind, hkind'⟩ := hboth .rows nofun hkind
      obtain ⟨hleft, hright⟩ := ha.wholeRows hkind
      obtain ⟨hleft', hright'⟩ := hb.wholeRows hkind'
      simp [hleft, hright, hleft', hright']
  · cases h

/-- A column of whole columns keeps all rows, and a row of whole rows all columns. -/
theorem Placed.slice (ha : area.Placed) {part : Function.Slice}
    (hpart : PartOf area.height area.width part) : (Function.sliceOfArea area part).Placed := by
  have hgrid := ha.toInGrid.slice hpart
  cases part with
  | cell row col => exact ⟨.ofCells hgrid rfl, ha.sheet_ne⟩
  | row row =>
      refine ⟨⟨hgrid, fun hkind => ?_, fun hkind => ?_⟩, ha.sheet_ne⟩
      · simp only [Function.sliceOfArea] at hkind
        split at hkind <;> cases hkind
      · simp only [Function.sliceOfArea] at hkind
        split at hkind
        · exact ha.wholeRows ‹_›
        · cases hkind
  | column col =>
      refine ⟨⟨hgrid, fun hkind => ?_, fun hkind => ?_⟩, ha.sheet_ne⟩
      · simp only [Function.sliceOfArea] at hkind
        split at hkind
        · exact ha.wholeColumns ‹_›
        · cases hkind
      · simp only [Function.sliceOfArea] at hkind
        split at hkind <;> cases hkind

/-- A moved area is whole columns, or whole rows, only if it still reaches across the grid. -/
theorem Placed.offset {dRow dCol : Int} {height width : Option Int} (ha : a.Placed)
    (h : a.offset dRow dCol height width = .ok area) : area.Placed := by
  obtain ⟨hgrid, hsheet⟩ := offset_eq_ok h
  unfold Area.offset at h
  simp only [bind_eq_ok, pure_eq_ok] at h
  obtain ⟨moved, -, rfl⟩ := h
  refine ⟨⟨hgrid, fun hkind => ?_, fun hkind => ?_⟩, hsheet ▸ ha.sheet_ne⟩
  · dsimp only at hkind ⊢
    split at hkind
    · split at hkind
      · rename_i hfull
        simpa using hfull
      · cases hkind
    · split at hkind <;> cases hkind
    · cases hkind
  · dsimp only at hkind ⊢
    split at hkind
    · split at hkind <;> cases hkind
    · split at hkind
      · rename_i hfull
        simpa using hfull
      · cases hkind
    · cases hkind

theorem Placed.clip (ha : area.Placed) (rows cols : Nat) : (area.clip rows cols).Placed := by
  have hproper := ha.toProper.clip rows cols
  obtain ⟨⟨⟨⟨_, hrows, _, hcols⟩, hbottom, hright⟩, _, _⟩, _⟩ := id ha
  unfold Area.clip at hproper ⊢
  split
  · exact ha
  · refine ⟨.ofCells ⟨by simpa only [*] using hproper, ?_, hright⟩ rfl, ha.sheet_ne⟩
    exact Nat.le_trans (Nat.max_le.mpr ⟨hrows, Nat.min_le_right _ _⟩) hbottom
  · refine ⟨.ofCells ⟨by simpa only [*] using hproper, hbottom, ?_⟩ rfl, ha.sheet_ne⟩
    exact Nat.le_trans (Nat.max_le.mpr ⟨hcols, Nat.min_le_right _ _⟩) hright

theorem Placed.within? {used : Area} (ha : area.Placed)
    (h : area.within? rows cols = some used) : used.Placed := by
  have hproper := ha.toProper.within? h
  obtain ⟨-, -, rfl⟩ := within?_eq_some h
  exact ⟨.ofCells ⟨hproper, Nat.le_trans (Nat.min_le_left _ _) ha.bottom_le,
    Nat.le_trans (Nat.min_le_left _ _) ha.right_le⟩ rfl, ha.sheet_ne⟩

end Area

/-! ## Areas read from text -/

namespace Reference

variable {cs : List Char} {sheet : String} {base : CellAddress} {area : Area}

/-- The sheet of an area is one that the text names or the given one, and neither is empty. -/
theorem placed_of_readArea (h : readArea cs sheet = .ok area) : area.Placed := by
  unfold readArea at h
  simp only [bind_eq_ok, unless_eq_ok, mapError_eq_ok, pure_eq_ok] at h
  obtain ⟨⟨named, body⟩, -, hne, corners, hcorners, rfl⟩ := h
  exact ⟨(wellFormed_of_readCorners hcorners).on _, fun h => hne (String.isEmpty_iff.mpr h)⟩

theorem placed_of_readCountedArea (hbase : base.sheet ≠ "")
    (h : readCountedArea cs base = .ok area) : area.Placed := by
  have hgrid := inGrid_of_readCountedArea h
  unfold readCountedArea at h
  simp only [bind_eq_ok, mapError_eq_ok] at h
  obtain ⟨⟨named, body⟩, hsplit, h⟩ := h
  have hne : named.getD base.sheet ≠ "" := by
    cases named with
    | none => exact hbase
    | some name => exact SheetName.ne_empty_of_splitCornersChars hsplit name rfl
  dsimp only at h
  split at h
  · simp only [bind_eq_ok, pure_eq_ok] at h
    obtain ⟨a, -, b, -, rfl⟩ := h
    exact ⟨.ofCells hgrid rfl, hne⟩
  · split at h
    · simp only [unless_eq_ok, pure_eq_ok] at h
      obtain ⟨-, -, rfl⟩ := h
      exact ⟨⟨hgrid, by rintro ⟨⟩, fun _ => Grid.allCols⟩, hne⟩
    · split at h
      · simp only [unless_eq_ok, pure_eq_ok] at h
        obtain ⟨-, -, rfl⟩ := h
        exact ⟨⟨hgrid, fun _ => Grid.allRows, by rintro ⟨⟩⟩, hne⟩
      · simp [throw_eq_ok] at h

end Reference

end Spreadsheet
