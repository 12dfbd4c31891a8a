-- SUMMARY: Offsets are exact: the rectangle over unbounded integers, or none where it leaves the grid.
import Spreadsheet.Proofs.Placement

/-!
# Offsets

A cell is moved and the result sized in arithmetic of 64-bit words, and the corners are then cut
to 32 bits. Whatever the four numbers are, the result is the rectangle that unbounded integers
give, and it is refused exactly where that rectangle leaves the grid. Moving an area twice is
moving it once by the sums.
-/

namespace Spreadsheet

open Text

/-! ## Words of the machine -/

namespace Text

/-- The number fits a 64-bit word. -/
def IsWord (n : Int) : Prop := minWord ≤ n ∧ n ≤ maxWord

instance (n : Int) : Decidable (IsWord n) := inferInstanceAs (Decidable (_ ∧ _))

/-- What a 64-bit word holds after a step that is not checked. -/
def wrapWord (n : Int) : Int := n.bmod (2 ^ 64)

/-- What 32 bits hold of a word. -/
def cutWord (n : Int) : Nat := (n % 2 ^ 32).toNat

variable {n m : Int}

theorem wrapWord_eq_self (h : IsWord n) : wrapWord n = n := by
  unfold IsWord minWord maxWord at h
  apply Int.bmod_eq_of_le <;> omega

theorem cutWord_eq_toNat (hlow : 0 ≤ n) (hhigh : n < 2 ^ 32) : cutWord n = n.toNat := by
  rw [cutWord, Int.emod_eq_of_lt hlow hhigh]

theorem word?_eq_some : word? n = some m ↔ IsWord n ∧ n = m := by
  unfold word? IsWord
  split <;> simp [*]

end Text

namespace Grid

variable {n : Int}

theorem HasRow.isWord (h : HasRow n) : IsWord n := by
  unfold HasRow maxRows at h
  unfold IsWord minWord maxWord
  omega

theorem HasCol.isWord (h : HasCol n) : IsWord n := by
  unfold HasCol maxCols at h
  unfold IsWord minWord maxWord
  omega

theorem HasRow.cutWord (h : HasRow n) : cutWord n = n.toNat := by
  unfold HasRow maxRows at h
  apply cutWord_eq_toNat <;> omega

theorem HasCol.cutWord (h : HasCol n) : cutWord n = n.toNat := by
  unfold HasCol maxCols at h
  apply cutWord_eq_toNat <;> omega

end Grid

namespace Area

variable {base moved again area : Area} {cell : CellAddress}
variable {anchor size first last dRow dCol height width : Int}

/-! ## Offsets on a machine -/

/-- `span?` with the step from a size to the distance of the far end wrapped. -/
def wrappedSpan? (anchor size : Int) : Option (Int × Int) :=
  if 0 < size then (word? (anchor + wrapWord (size - 1))).map (anchor, ·)
  else (word? (anchor + wrapWord (size + 1))).map (·, anchor)

/-- `offsetCell` with every step that is not checked wrapped, and the corners cut to 32 bits. -/
def wrappedOffset (base : CellAddress) (dRow dCol height width : Int) : Except Fault Area := do
  if height = 0 ∨ width = 0 then throw (.emptySize height width)
  let beyond := Fault.outOfBounds (clampWord (base.row + dRow)) (clampWord (base.col + dCol))
  let rows := (word? (base.row + dRow)).bind (wrappedSpan? · height)
  let cols := (word? (base.col + dCol)).bind (wrappedSpan? · width)
  match rows, cols with
  | some (top, bottom), some (left, right) =>
    if ¬ (Grid.HasRow top ∧ Grid.HasCol left) then throw (.outOfBounds top left)
    if ¬ (Grid.HasRow bottom ∧ Grid.HasCol right) then throw (.outOfBounds bottom right)
    return ofCorners base.sheet (cutWord top) (cutWord left) (cutWord bottom) (cutWord right)
  | _, _ => throw beyond

theorem wrappedSpan?_eq (hsize : IsWord size) : wrappedSpan? anchor size = span? anchor size := by
  unfold IsWord at hsize
  unfold wrappedSpan? span?
  split
  · rename_i hpos
    have hstep : IsWord (size - 1) := by
      unfold IsWord minWord at *
      omega
    rw [wrapWord_eq_self hstep]
  · rename_i hpos
    have hstep : IsWord (size + 1) := by
      unfold IsWord maxWord at *
      omega
    rw [wrapWord_eq_self hstep]

/-- No step overflows: the machine's offset is the offset. -/
theorem wrappedOffset_eq (base : CellAddress) (hheight : IsWord height) (hwidth : IsWord width) :
    wrappedOffset base dRow dCol height width = offsetCell base dRow dCol height width := by
  unfold wrappedOffset offsetCell
  simp only [wrappedSpan?_eq hheight, wrappedSpan?_eq hwidth]
  generalize (word? (base.row + dRow)).bind (span? · height) = rows
  generalize (word? (base.col + dCol)).bind (span? · width) = cols
  rcases rows with _ | ⟨top, bottom⟩
  · rfl
  rcases cols with _ | ⟨left, right⟩
  · rfl
  dsimp only
  by_cases hfirst : Grid.HasRow top ∧ Grid.HasCol left
  · by_cases hlast : Grid.HasRow bottom ∧ Grid.HasCol right
    · rw [hfirst.1.cutWord, hfirst.2.cutWord, hlast.1.cutWord, hlast.2.cutWord]
    · simp only [if_pos hlast]
      rfl
  · simp only [if_pos hfirst]
    rfl

/-! ## The exact rectangle -/

/-- The index is one of the `|size|` that start at `anchor` and go on, or back if `size` is
negative. -/
def Reaches (anchor size index : Int) : Prop :=
  if 0 < size then anchor ≤ index ∧ index < anchor + size
  else anchor + size < index ∧ index ≤ anchor

instance (anchor size index : Int) : Decidable (Reaches anchor size index) :=
  inferInstanceAs (Decidable (if 0 < size then _ ∧ _ else _ ∧ _))

/-- The ends of what is reached, in order. -/
def ends (anchor size : Int) : Int × Int :=
  if 0 < size then (anchor, anchor + (size - 1)) else (anchor + (size + 1), anchor)

theorem reaches_iff (h : ends anchor size = (first, last)) {index : Int} :
    Reaches anchor size index ↔ first ≤ index ∧ index ≤ last := by
  unfold ends at h
  unfold Reaches
  split at h
  · rename_i hpos
    cases h
    simp only [hpos, if_true]
    omega
  · rename_i hpos
    cases h
    simp only [hpos, if_false]
    omega

/-- The ends are as far apart as the size says. -/
theorem ends_sub (h : ends anchor size = (first, last)) : last - first + 1 = size.natAbs := by
  unfold ends at h
  split at h
  · cases h
    omega
  · cases h
    omega

/-- All that is reached lies between two bounds if the ends do. -/
theorem forall_reaches (h : ends anchor size = (first, last)) (hsize : size ≠ 0) {low high : Int} :
    (∀ index, Reaches anchor size index → low ≤ index ∧ index ≤ high) ↔
      (low ≤ first ∧ first ≤ high) ∧ low ≤ last ∧ last ≤ high := by
  have hsub := ends_sub h
  simp only [reaches_iff h]
  constructor
  · intro hall
    exact ⟨hall first ⟨by omega, by omega⟩, hall last ⟨by omega, by omega⟩⟩
  · rintro ⟨⟨hlow, -⟩, -, hhigh⟩ index ⟨hfirst, hlast⟩
    omega

/-- One of the ends is the anchor, so the checked steps succeed exactly if both ends are words. -/
theorem span?_eq_some :
    (word? anchor).bind (span? · size) = some (first, last) ↔
      IsWord first ∧ IsWord last ∧ ends anchor size = (first, last) := by
  simp only [Option.bind_eq_some_iff, word?_eq_some, span?, ends]
  split
  · simp only [Option.map_eq_some_iff, word?_eq_some, Prod.mk.injEq]
    grind
  · simp only [Option.map_eq_some_iff, word?_eq_some, Prod.mk.injEq]
    grind

/-- The offset comes to an area exactly if the ends of both its sides lie in the grid. -/
theorem offsetCell_eq_ok_iff {base : CellAddress} {top bottom left right : Int}
    (hheight : height ≠ 0) (hwidth : width ≠ 0)
    (hrows : ends (base.row + dRow) height = (top, bottom))
    (hcols : ends (base.col + dCol) width = (left, right)) :
    offsetCell base dRow dCol height width = .ok area ↔
      (Grid.HasRow top ∧ Grid.HasCol left) ∧ (Grid.HasRow bottom ∧ Grid.HasCol right) ∧
        ofCorners base.sheet top.toNat left.toNat bottom.toNat right.toNat = area := by
  unfold offsetCell
  simp only [hheight, hwidth, or_self, if_false]
  split
  · rename_i top' bottom' left' right' hrows' hcols'
    obtain ⟨-, -, hrows'⟩ := span?_eq_some.mp hrows'
    obtain ⟨-, -, hcols'⟩ := span?_eq_some.mp hcols'
    cases hrows.symm.trans hrows'
    cases hcols.symm.trans hcols'
    simp only [unless_eq_ok, pure_eq_ok, not_not]
  · rename_i hnone
    simp only [throw_eq_ok, false_iff]
    rintro ⟨⟨htop, hleft⟩, ⟨hbottom, hright⟩, -⟩
    exact hnone _ _ _ _ (span?_eq_some.mpr ⟨htop.isWord, hbottom.isWord, hrows⟩)
      (span?_eq_some.mpr ⟨hleft.isWord, hright.isWord, hcols⟩)

/-- With a size in both directions, what goes wrong is that the grid is left. -/
theorem offsetCell_eq_error {base : CellAddress} {fault : Fault} (hheight : height ≠ 0)
    (hwidth : width ≠ 0) (h : offsetCell base dRow dCol height width = .error fault) :
    ∃ row col, fault = .outOfBounds row col := by
  unfold offsetCell at h
  simp only [hheight, hwidth, or_self, if_false] at h
  split at h
  · split at h
    · cases h
      exact ⟨_, _, rfl⟩
    · split at h
      · cases h
        exact ⟨_, _, rfl⟩
      · cases h
  · cases h
    exact ⟨_, _, rfl⟩

/-- A rectangle in the grid is what the offset comes to, cell for cell. -/
theorem exists_offsetCell {base : CellAddress} (hheight : height ≠ 0) (hwidth : width ≠ 0)
    (hrows : ∀ row, Reaches (base.row + dRow) height row → Grid.HasRow row)
    (hcols : ∀ col, Reaches (base.col + dCol) width col → Grid.HasCol col) :
    ∃ area, offsetCell base dRow dCol height width = .ok area ∧ area.InGrid ∧
      area.kind = .cells ∧ area.height = height.natAbs ∧ area.width = width.natAbs ∧
      ∀ cell, area.contains cell ↔ cell.sheet = base.sheet ∧
        Reaches (base.row + dRow) height cell.row ∧ Reaches (base.col + dCol) width cell.col := by
  obtain ⟨top, bottom, hvertical⟩ : ∃ top bottom, ends (base.row + dRow) height = (top, bottom) :=
    ⟨_, _, rfl⟩
  obtain ⟨left, right, hacross⟩ : ∃ left right, ends (base.col + dCol) width = (left, right) :=
    ⟨_, _, rfl⟩
  obtain ⟨htop, hbottom⟩ := (forall_reaches hvertical hheight).mp hrows
  obtain ⟨hleft, hright⟩ := (forall_reaches hacross hwidth).mp hcols
  have hrowSub := ends_sub hvertical
  have hcolSub := ends_sub hacross
  refine ⟨_, (offsetCell_eq_ok_iff hheight hwidth hvertical hacross).mpr
    ⟨⟨htop, hleft⟩, ⟨hbottom, hright⟩, rfl⟩, .ofCorners htop hleft hbottom hright, rfl, ?_, ?_, ?_⟩
  · simp only [Area.height, ofCorners]
    omega
  · simp only [Area.width, ofCorners]
    omega
  · intro cell
    simp only [contains_iff, ofCorners, reaches_iff hvertical, reaches_iff hacross]
    refine and_congr_right fun _ => ?_
    omega

/-- A rectangle that the offset comes to lies in the grid. -/
theorem reaches_of_offsetCell {base : CellAddress} (hheight : height ≠ 0) (hwidth : width ≠ 0)
    (h : offsetCell base dRow dCol height width = .ok area) :
    (∀ row, Reaches (base.row + dRow) height row → Grid.HasRow row) ∧
      ∀ col, Reaches (base.col + dCol) width col → Grid.HasCol col := by
  obtain ⟨⟨htop, hleft⟩, ⟨hbottom, hright⟩, -⟩ :=
    (offsetCell_eq_ok_iff hheight hwidth rfl rfl).mp h
  exact ⟨(forall_reaches rfl hheight).mpr ⟨htop, hbottom⟩,
    (forall_reaches rfl hwidth).mpr ⟨hleft, hright⟩⟩

/-! ## Moving an area -/

/-- The area lies in the grid, `dRow` rows below `base` and `dCol` columns right of it, and has its
size and kind. -/
structure Translated (base : Area) (dRow dCol : Int) (area : Area) : Prop where
  inGrid : area.InGrid
  sheet : area.sheet = base.sheet
  kind : area.kind = base.kind
  top : area.top = base.top + dRow
  bottom : area.bottom = base.bottom + dRow
  left : area.left = base.left + dCol
  right : area.right = base.right + dCol

theorem Translated.trans {dRow' dCol' : Int} (h : base.Translated dRow dCol moved)
    (h' : moved.Translated dRow' dCol' again) :
    base.Translated (dRow + dRow') (dCol + dCol') again where
  inGrid := h'.inGrid
  sheet := h'.sheet.trans h.sheet
  kind := h'.kind.trans h.kind
  top := by rw [h'.top, h.top, Int.add_assoc]
  bottom := by rw [h'.bottom, h.bottom, Int.add_assoc]
  left := by rw [h'.left, h.left, Int.add_assoc]
  right := by rw [h'.right, h.right, Int.add_assoc]

/-- What moves an area about the grid fits a word. -/
theorem Translated.isWord (hbase : base.InGrid) (h : base.Translated dRow dCol area) :
    IsWord dRow ∧ IsWord dCol := by
  have htop := h.top
  have hleft := h.left
  obtain ⟨⟨_, _, _, _⟩, hbottom, hright⟩ := hbase
  obtain ⟨⟨_, _, _, _⟩, hbottom', hright'⟩ := h.inGrid
  unfold Grid.maxRows at hbottom hbottom'
  unfold Grid.maxCols at hright hright'
  unfold IsWord minWord maxWord
  omega

/-- An area in its place is told by the move. -/
theorem Translated.unique {area' : Area} (h : base.Translated dRow dCol area)
    (h' : base.Translated dRow dCol area') : area = area' := by
  obtain ⟨-, hsheet, hkind, _, _, _, _⟩ := h
  obtain ⟨-, hsheet', hkind', _, _, _, _⟩ := h'
  rcases area with ⟨sheet, top, left, bottom, right, kind⟩
  rcases area' with ⟨sheet', top', left', bottom', right', kind'⟩
  simp only [mk.injEq] at *
  refine ⟨hsheet.trans hsheet'.symm, ?_, ?_, ?_, ?_, hkind.trans hkind'.symm⟩ <;> omega

/-- The corners of an area of its own size are moved one by one. -/
theorem offsetCell_topLeft (hbase : base.Proper) :
    offsetCell base.topLeft dRow dCol base.height base.width = .ok area ↔
      (Grid.HasRow (base.top + dRow) ∧ Grid.HasCol (base.left + dCol)) ∧
        (Grid.HasRow (base.bottom + dRow) ∧ Grid.HasCol (base.right + dCol)) ∧
          ofCorners base.sheet (base.top + dRow).toNat (base.left + dCol).toNat
            (base.bottom + dRow).toNat (base.right + dCol).toNat = area := by
  obtain ⟨-, hrows, -, hcols⟩ := hbase
  have hheight : (base.height : Int) = base.bottom - base.top + 1 := by
    unfold height
    omega
  have hwidth : (base.width : Int) = base.right - base.left + 1 := by
    unfold width
    omega
  apply offsetCell_eq_ok_iff
  · omega
  · omega
  · rw [ends, if_pos (by omega), hheight, Prod.mk.injEq]
    dsimp only [topLeft]
    omega
  · rw [ends, if_pos (by omega), hwidth, Prod.mk.injEq]
    dsimp only [topLeft]
    omega

/-- Whole columns are moved sideways only and whole rows up and down only, so both stay so. -/
theorem translated_of_offset (hbase : base.WellFormed)
    (h : base.offset dRow dCol none none = .ok area) : base.Translated dRow dCol area := by
  unfold offset at h
  simp only [Option.getD_none, bind_eq_ok, pure_eq_ok, offsetCell_topLeft hbase.toProper] at h
  obtain ⟨moved, ⟨⟨htop, hleft⟩, ⟨hbottom, hright⟩, rfl⟩, rfl⟩ := h
  have hgrid := @InGrid.ofCorners base.sheet _ _ _ _ htop hleft hbottom hright
  have hrows := hbase.rows
  have hcols := hbase.cols
  unfold Grid.HasRow at htop hbottom
  unfold Grid.HasCol at hleft hright
  refine ⟨⟨⟨hgrid.top, hgrid.rows, hgrid.left, hgrid.cols⟩, hgrid.bottom_le, hgrid.right_le⟩,
    rfl, ?_, ?_, ?_, ?_, ?_⟩
  · cases hkind : base.kind with
    | cells => rfl
    | columns =>
        obtain ⟨_, _⟩ := hbase.wholeColumns hkind
        refine if_pos ?_
        simp only [ofCorners, Bool.and_eq_true, beq_iff_eq]
        omega
    | rows =>
        obtain ⟨_, _⟩ := hbase.wholeRows hkind
        refine if_pos ?_
        simp only [ofCorners, Bool.and_eq_true, beq_iff_eq]
        omega
  all_goals
    dsimp only [ofCorners]
    omega

/-- An area of its own size is moved exactly if the result lies in the grid. -/
theorem offset_eq_ok_iff (hbase : base.WellFormed) :
    base.offset dRow dCol none none = .ok area ↔ base.Translated dRow dCol area := by
  constructor
  · exact translated_of_offset hbase
  · intro h
    obtain ⟨moved, hmoved⟩ : ∃ moved, base.offset dRow dCol none none = .ok moved := by
      obtain ⟨⟨⟨_, _, _, _⟩, _, _⟩, -, -, _, _, _, _⟩ := id h
      unfold offset
      simp only [Option.getD_none, bind_eq_ok, pure_eq_ok, offsetCell_topLeft hbase.toProper]
      refine ⟨_, _, ⟨⟨?_, ?_⟩, ⟨?_, ?_⟩, rfl⟩, rfl⟩
      all_goals
        constructor <;> omega
    rw [hmoved, h.unique (translated_of_offset hbase hmoved)]

/-- Moving an area twice is moving it once by the sums. -/
theorem offset_offset {dRow' dCol' : Int} (hbase : base.Placed)
    (h : base.offset dRow dCol none none = .ok moved)
    (h' : moved.offset dRow' dCol' none none = .ok again) :
    (IsWord (dRow + dRow') ∧ IsWord (dCol + dCol')) ∧
      base.offset (dRow + dRow') (dCol + dCol') none none = .ok again := by
  have htwice : base.Translated (dRow + dRow') (dCol + dCol') again :=
    ((offset_eq_ok_iff hbase.toWellFormed).mp h).trans
      ((offset_eq_ok_iff (hbase.offset h).toWellFormed).mp h')
  exact ⟨htwice.isWord hbase.toInGrid, (offset_eq_ok_iff hbase.toWellFormed).mpr htwice⟩

/-- **Offsets are exact.** No step on a machine of 64-bit words and 32-bit corners changes the
result. A size of zero is refused. Otherwise the result is the rectangle of unbounded integers that
starts at the moved cell and goes as far as the sizes say, or, where that leaves the grid, an error
that says so. An area moved twice is the area moved once by the sums, of the same kind. -/
theorem offsets_exact :
    (∀ (base : CellAddress) (dRow dCol height width : Int),
      (IsWord height → IsWord width →
        wrappedOffset base dRow dCol height width = offsetCell base dRow dCol height width) ∧
      (height = 0 ∨ width = 0 →
        offsetCell base dRow dCol height width = .error (.emptySize height width)) ∧
      (height ≠ 0 → width ≠ 0 →
        (∀ row, Reaches (base.row + dRow) height row → Grid.HasRow row) →
        (∀ col, Reaches (base.col + dCol) width col → Grid.HasCol col) →
        ∃ area, offsetCell base dRow dCol height width = .ok area ∧ area.InGrid ∧
          area.kind = .cells ∧ area.height = height.natAbs ∧ area.width = width.natAbs ∧
          ∀ cell, area.contains cell ↔ cell.sheet = base.sheet ∧
            Reaches (base.row + dRow) height cell.row ∧
            Reaches (base.col + dCol) width cell.col) ∧
      (height ≠ 0 → width ≠ 0 →
        ¬ ((∀ row, Reaches (base.row + dRow) height row → Grid.HasRow row) ∧
          ∀ col, Reaches (base.col + dCol) width col → Grid.HasCol col) →
        ∃ row col, offsetCell base dRow dCol height width = .error (.outOfBounds row col))) ∧
    (∀ (base moved again : Area) (dRow dCol dRow' dCol' : Int), base.Placed →
      base.offset dRow dCol none none = .ok moved →
      moved.offset dRow' dCol' none none = .ok again →
      (IsWord (dRow + dRow') ∧ IsWord (dCol + dCol')) ∧
        base.offset (dRow + dRow') (dCol + dCol') none none = .ok again) := by
  refine ⟨fun base dRow dCol height width => ⟨wrappedOffset_eq base, ?_, exists_offsetCell, ?_⟩, ?_⟩
  · intro hzero
    unfold offsetCell
    rw [if_pos hzero]
    rfl
  · intro hheight hwidth hleaves
    cases h : offsetCell base dRow dCol height width with
    | ok area => exact absurd (reaches_of_offsetCell hheight hwidth h) hleaves
    | error fault =>
        obtain ⟨row, col, rfl⟩ := offsetCell_eq_error hheight hwidth h
        exact ⟨row, col, rfl⟩
  · intro base moved again dRow dCol dRow' dCol' hbase hmoved hagain
    exact offset_offset hbase hmoved hagain

/-- Three rows up and two columns right, off the end of the sheet, and whole columns moved to the
side and back. -/
theorem offsets_exact_at_cell :
    (wrappedOffset ⟨"Sheet1", 5, 5⟩ (-1) 2 (-3) 2 = offsetCell ⟨"Sheet1", 5, 5⟩ (-1) 2 (-3) 2 ∧
      offsetCell ⟨"Sheet1", 5, 5⟩ (-1) 2 0 2 = .error (.emptySize 0 2) ∧
      (∃ area, offsetCell ⟨"Sheet1", 5, 5⟩ (-1) 2 (-3) 2 = .ok area ∧
        area.height = 3 ∧ area.contains ⟨"Sheet1", 2, 8⟩) ∧
      ∃ row col, offsetCell ⟨"Sheet1", 5, 5⟩ maxWord 2 (-3) 2 = .error (.outOfBounds row col)) ∧
    (wholeColumns "Sheet1" 2 3).offset 0 3 none none = .ok (wholeColumns "Sheet1" 5 6) := by
  obtain ⟨hcells, hareas⟩ := offsets_exact
  have hrows (row : Int) (h : Reaches (5 + -1) (-3) row) : Grid.HasRow row := by
    rw [Reaches, if_neg (by decide)] at h
    unfold Grid.HasRow Grid.maxRows
    omega
  have hcols (col : Int) (h : Reaches (5 + 2) 2 col) : Grid.HasCol col := by
    rw [Reaches, if_pos (by decide)] at h
    unfold Grid.HasCol Grid.maxCols
    omega
  have hbeyond : ¬ Grid.HasRow (5 + maxWord) := by decide
  have hplaced : (wholeColumns "Sheet1" 2 3).Placed :=
    ⟨⟨@InGrid.wholeColumns "Sheet1" 2 3 (by decide) (by decide), fun _ => Grid.allRows, nofun⟩,
      by decide⟩
  have hright : (wholeColumns "Sheet1" 2 3).offset 0 5 none none =
      .ok (wholeColumns "Sheet1" 7 8) := rfl
  have hleft : (wholeColumns "Sheet1" 7 8).offset 0 (-2) none none =
      .ok (wholeColumns "Sheet1" 5 6) := rfl
  refine ⟨⟨(hcells _ (-1) 2 (-3) 2).1 (by decide) (by decide),
    (hcells _ (-1) 2 0 2).2.1 (.inl rfl), ?_, ?_⟩, (hareas _ _ _ 0 5 0 (-2) hplaced hright hleft).2⟩
  · obtain ⟨area, harea, -, -, hheight, -, hcontains⟩ :=
      (hcells ⟨"Sheet1", 5, 5⟩ (-1) 2 (-3) 2).2.2.1 (by decide) (by decide) hrows hcols
    exact ⟨area, harea, hheight, (hcontains _).mpr ⟨rfl, by decide⟩⟩
  · refine (hcells ⟨"Sheet1", 5, 5⟩ maxWord 2 (-3) 2).2.2.2 (by decide) (by decide) fun hall => ?_
    exact hbeyond (hall.1 _ (by decide))

end Area

end Spreadsheet
