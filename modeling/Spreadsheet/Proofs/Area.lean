-- SUMMARY: Proper areas, the cells they contain, and areas that share their first corner.
import Mathlib.Tactic.Tauto
import Spreadsheet.Area.Offset
import Spreadsheet.Function.Lookup
import Spreadsheet.Proofs.Result

/-!
# Proper areas

An area is proper if its corners are in order and rows and columns count from one. All
areas made from proper ones are proper, and those made from areas in the grid stay in the
grid. The cells of a proper area are listed row by row,
and listing a part of it that starts at the same corner skips the other cells.
-/

namespace Spreadsheet

namespace Area

/-- The corners are in order, and rows and columns count from one. -/
structure Proper (area : Area) : Prop where
  top : 1 ≤ area.top
  rows : area.top ≤ area.bottom
  left : 1 ≤ area.left
  cols : area.left ≤ area.right

/-- The area is proper and ends inside the grid. -/
structure InGrid (area : Area) : Prop extends area.Proper where
  bottom_le : area.bottom ≤ Grid.maxRows
  right_le : area.right ≤ Grid.maxCols

variable {area a b : Area} {c : CellAddress} {rows cols : Nat}

theorem contains_iff :
    area.contains c ↔ c.sheet = area.sheet ∧ area.top ≤ c.row ∧ c.row ≤ area.bottom ∧
      area.left ≤ c.col ∧ c.col ≤ area.right := by
  simp [contains, and_assoc]

theorem contains_ofCell {c d : CellAddress} : (ofCell c).contains d ↔ c = d := by
  obtain ⟨_, _, _⟩ := c
  obtain ⟨_, _, _⟩ := d
  simp only [contains_iff, ofCell, CellAddress.mk.injEq]
  grind

/-! ## Making proper areas -/

theorem Proper.ofCell (hrow : 1 ≤ c.row) (hcol : 1 ≤ c.col) : (ofCell c).Proper :=
  ⟨hrow, Nat.le_refl _, hcol, Nat.le_refl _⟩

theorem Proper.ofCorners {sheet : String} {row₁ col₁ row₂ col₂ : Nat} (hrow₁ : 1 ≤ row₁)
    (hcol₁ : 1 ≤ col₁) (hrow₂ : 1 ≤ row₂) (hcol₂ : 1 ≤ col₂) :
    (ofCorners sheet row₁ col₁ row₂ col₂).Proper := by
  constructor <;> simp only [Area.ofCorners] <;> omega

theorem Proper.wholeRows {sheet : String} {first last : Nat} (hfirst : 1 ≤ first)
    (hlast : 1 ≤ last) : (wholeRows sheet first last).Proper :=
  have ⟨htop, hrows, hleft, hcols⟩ := @Proper.ofCorners sheet _ _ _ _ hfirst (Nat.le_refl 1)
    hlast (by decide : 1 ≤ Grid.maxCols)
  ⟨htop, hrows, hleft, hcols⟩

theorem Proper.wholeColumns {sheet : String} {first last : Nat} (hfirst : 1 ≤ first)
    (hlast : 1 ≤ last) : (wholeColumns sheet first last).Proper :=
  have ⟨htop, hrows, hleft, hcols⟩ := @Proper.ofCorners sheet _ _ _ _ (Nat.le_refl 1) hfirst
    (by decide : 1 ≤ Grid.maxRows) hlast
  ⟨htop, hrows, hleft, hcols⟩

theorem Proper.bounding (ha : a.Proper) (hb : b.Proper) (h : a.bounding b = .ok area) :
    area.Proper := by
  unfold Area.bounding at h
  split at h
  · cases h
    obtain ⟨_, _, _, _⟩ := ha
    obtain ⟨_, _, _, _⟩ := hb
    constructor <;> dsimp only <;> omega
  · cases h

theorem Proper.slice (ha : area.Proper) (part : Function.Slice) :
    (Function.sliceOfArea area part).Proper := by
  obtain ⟨_, _, _, _⟩ := ha
  cases part with
  | cell row col => exact .ofCell (Nat.le_add_right_of_le ‹_›) (Nat.le_add_right_of_le ‹_›)
  | row row => constructor <;> simp only [Function.sliceOfArea] <;> omega
  | column col => constructor <;> simp only [Function.sliceOfArea] <;> omega

/-! ## Areas in the grid -/

theorem InGrid.ofCell (hrow : Grid.HasRow c.row) (hcol : Grid.HasCol c.col) :
    (ofCell c).InGrid where
  toProper := .ofCell (Int.ofNat_le.mp hrow.1) (Int.ofNat_le.mp hcol.1)
  bottom_le := Int.ofNat_le.mp hrow.2
  right_le := Int.ofNat_le.mp hcol.2

theorem InGrid.ofCorners {sheet : String} {row₁ col₁ row₂ col₂ : Int} (hrow₁ : Grid.HasRow row₁)
    (hcol₁ : Grid.HasCol col₁) (hrow₂ : Grid.HasRow row₂) (hcol₂ : Grid.HasCol col₂) :
    (ofCorners sheet row₁.toNat col₁.toNat row₂.toNat col₂.toNat).InGrid := by
  obtain ⟨_, _⟩ := hrow₁
  obtain ⟨_, _⟩ := hcol₁
  obtain ⟨_, _⟩ := hrow₂
  obtain ⟨_, _⟩ := hcol₂
  refine ⟨.ofCorners (by omega) (by omega) (by omega) (by omega), ?_, ?_⟩
  · simp only [Area.ofCorners]
    omega
  · simp only [Area.ofCorners]
    omega

theorem InGrid.wholeRows {sheet : String} {first last : Int} (hfirst : Grid.HasRow first)
    (hlast : Grid.HasRow last) : (wholeRows sheet first.toNat last.toNat).InGrid := by
  obtain ⟨_, _⟩ := hfirst
  obtain ⟨_, _⟩ := hlast
  refine ⟨.wholeRows (by omega) (by omega), ?_, Nat.le_refl _⟩
  simp only [Area.wholeRows, Area.ofCorners]
  omega

theorem InGrid.wholeColumns {sheet : String} {first last : Int} (hfirst : Grid.HasCol first)
    (hlast : Grid.HasCol last) : (wholeColumns sheet first.toNat last.toNat).InGrid := by
  obtain ⟨_, _⟩ := hfirst
  obtain ⟨_, _⟩ := hlast
  refine ⟨.wholeColumns (by omega) (by omega), Nat.le_refl _, ?_⟩
  simp only [Area.wholeColumns, Area.ofCorners]
  omega

theorem InGrid.bounding (ha : a.InGrid) (hb : b.InGrid) (h : a.bounding b = .ok area) :
    area.InGrid := by
  have hproper := ha.toProper.bounding hb.toProper h
  unfold Area.bounding at h
  split at h
  · cases h
    exact ⟨hproper, Nat.max_le.mpr ⟨ha.bottom_le, hb.bottom_le⟩,
      Nat.max_le.mpr ⟨ha.right_le, hb.right_le⟩⟩
  · cases h

/-- The part lies in a block of that many rows and columns. -/
def PartOf (rows cols : Nat) : Function.Slice → Prop
  | .cell row col => row < rows ∧ col < cols
  | .row row => row < rows
  | .column col => col < cols

theorem partOf_slice {rowNum : Int} {colNum? : Option Int} {part : Function.Slice}
    (h : Function.slice rows cols rowNum colNum? = .ok part) : PartOf rows cols part := by
  unfold Function.slice at h
  split at h
  split at h
  · cases h
  · split at h
    · cases h
    · split at h
      · cases h
      all_goals
        cases h
        simp only [PartOf]
        omega

theorem InGrid.slice (ha : area.InGrid) {part : Function.Slice}
    (hpart : PartOf area.height area.width part) : (Function.sliceOfArea area part).InGrid := by
  have hproper := ha.toProper.slice part
  obtain ⟨⟨_, _, _, _⟩, _, _⟩ := ha
  unfold PartOf height width at hpart
  refine ⟨hproper, ?_, ?_⟩
  all_goals
    cases part <;> simp only [Function.sliceOfArea, Area.ofCell] at hpart ⊢ <;> omega

theorem InGrid.move (ha : area.InGrid) (sheet : String) : InGrid { area with sheet } :=
  have ⟨⟨htop, hrows, hleft, hcols⟩, hbottom, hright⟩ := ha
  ⟨⟨htop, hrows, hleft, hcols⟩, hbottom, hright⟩

/-- The cells of an area in the grid are in the grid. -/
theorem InGrid.of_contains (ha : area.InGrid) (h : area.contains c) :
    Grid.HasRow c.row ∧ Grid.HasCol c.col := by
  obtain ⟨⟨_, _, _, _⟩, _, _⟩ := ha
  obtain ⟨-, _, _, _, _⟩ := contains_iff.mp h
  exact ⟨⟨by omega, by omega⟩, ⟨by omega, by omega⟩⟩

theorem offsetCell_eq_ok {base : CellAddress} {dRow dCol height width : Int}
    (h : offsetCell base dRow dCol height width = .ok area) :
    area.InGrid ∧ area.sheet = base.sheet := by
  unfold offsetCell at h
  simp only [unless_eq_ok] at h
  obtain ⟨-, h⟩ := h
  split at h
  · simp only [unless_eq_ok, pure_eq_ok, not_not] at h
    obtain ⟨⟨htop, hleft⟩, ⟨hbottom, hright⟩, rfl⟩ := h
    exact ⟨.ofCorners htop hleft hbottom hright, rfl⟩
  · exact absurd h (by simp [throw_eq_ok])

theorem offset_eq_ok {base : Area} {dRow dCol : Int} {height width : Option Int}
    (h : base.offset dRow dCol height width = .ok area) :
    area.InGrid ∧ area.sheet = base.sheet := by
  unfold Area.offset at h
  simp only [bind_eq_ok, pure_eq_ok] at h
  obtain ⟨moved, hmoved, rfl⟩ := h
  obtain ⟨⟨⟨htop, hrows, hleft, hcols⟩, hbottom, hright⟩, hsheet⟩ := offsetCell_eq_ok hmoved
  exact ⟨⟨⟨htop, hrows, hleft, hcols⟩, hbottom, hright⟩, hsheet⟩

/-! ## Parts of areas -/

theorem contains_of_clip (ha : area.Proper) (h : (area.clip rows cols).contains c) :
    area.contains c := by
  obtain ⟨_, hrows, _, hcols⟩ := ha
  rw [contains_iff] at h ⊢
  unfold clip at h
  split at h
  · exact h
  · have hbottom : max area.top (min rows area.bottom) ≤ area.bottom :=
      Nat.max_le.mpr ⟨hrows, Nat.min_le_right _ _⟩
    exact ⟨h.1, h.2.1, Nat.le_trans h.2.2.1 hbottom, h.2.2.2⟩
  · have hright : max area.left (min cols area.right) ≤ area.right :=
      Nat.max_le.mpr ⟨hcols, Nat.min_le_right _ _⟩
    exact ⟨h.1, h.2.1, h.2.2.1, h.2.2.2.1, Nat.le_trans h.2.2.2.2 hright⟩

theorem Proper.clip (ha : area.Proper) (rows cols : Nat) : (area.clip rows cols).Proper := by
  obtain ⟨htop, hrows, hleft, hcols⟩ := ha
  unfold Area.clip
  split
  · exact ⟨htop, hrows, hleft, hcols⟩
  · exact ⟨htop, Nat.le_max_left _ _, hleft, hcols⟩
  · exact ⟨htop, hrows, hleft, Nat.le_max_left _ _⟩

theorem clip_sheet : (area.clip rows cols).sheet = area.sheet := by
  unfold clip
  split <;> rfl

/-- An area is cut to the same part if the part has the same shape. -/
theorem clip_eq_of_shape {rows' cols' : Nat}
    (hheight : (area.clip rows' cols').height = (area.clip rows cols).height)
    (hwidth : (area.clip rows' cols').width = (area.clip rows cols).width) :
    area.clip rows' cols' = area.clip rows cols := by
  unfold clip height width at *
  cases hkind : area.kind with
  | cells => rfl
  | columns =>
      simp only [hkind, mk.injEq, true_and, and_true] at hheight ⊢
      omega
  | rows =>
      simp only [hkind, mk.injEq, true_and, and_true] at hwidth ⊢
      omega

theorem within?_eq_some {used : Area} (h : area.within? rows cols = some used) :
    area.top ≤ rows ∧ area.left ≤ cols ∧ used =
      { area with
        bottom := min area.bottom rows, right := min area.right cols, kind := .cells } := by
  unfold within? at h
  split at h
  · cases h
  · cases h
    rename_i hle
    exact ⟨by omega, by omega, rfl⟩

theorem Proper.within? {used : Area} (ha : area.Proper) (h : area.within? rows cols = some used) :
    used.Proper := by
  obtain ⟨htop, hrows, hleft, hcols⟩ := ha
  obtain ⟨hrow, hcol, rfl⟩ := within?_eq_some h
  exact ⟨htop, Nat.le_min.mpr ⟨hrows, hrow⟩, hleft, Nat.le_min.mpr ⟨hcols, hcol⟩⟩

/-- The part that `within?` gives has the cells of the area in the first rows and columns. -/
theorem contains_within?_iff {used : Area} (h : area.within? rows cols = some used) :
    used.contains c ↔ area.contains c ∧ c.row ≤ rows ∧ c.col ≤ cols := by
  obtain ⟨-, -, rfl⟩ := within?_eq_some h
  simp only [contains_iff, Nat.le_min]
  tauto

theorem any_within?_contains (rows cols : Nat) :
    (area.within? rows cols).any (·.contains c) ↔
      area.contains c ∧ c.row ≤ rows ∧ c.col ≤ cols := by
  cases h : area.within? rows cols with
  | some used => exact contains_within?_iff h
  | none =>
      unfold within? at h
      split at h
      · simp only [Option.any_none, contains_iff, Bool.false_eq_true, false_iff]
        omega
      · cases h

/-! ## Listing cells -/

theorem width_pos (area : Area) : 0 < area.width := Nat.succ_pos _

theorem contains_topLeft (ha : area.Proper) : area.contains area.topLeft :=
  contains_iff.mpr ⟨rfl, Nat.le_refl _, ha.rows, Nat.le_refl _, ha.cols⟩

theorem length_cells (area : Area) : area.cells.length = area.size := by
  simp [cells, firstCells]

theorem getElem_cells {i : Nat} (h : i < area.cells.length) : area.cells[i] = area.cellAt i := by
  simp [cells, firstCells]

/-- There are no last zero cells. -/
theorem drop_cells_zero (area : Area) : area.cells.drop (area.size - 0) = [] := by
  rw [Nat.sub_zero, ← area.length_cells, List.drop_length]

/-- The last cells are the first one of them and those behind it. -/
theorem drop_cells_succ {count : Nat} (h : count + 1 ≤ area.size) :
    area.cells.drop (area.size - (count + 1)) =
      area.cellAt (area.size - (count + 1)) :: area.cells.drop (area.size - count) := by
  have hlt : area.size - (count + 1) < area.cells.length := by
    rw [area.length_cells]
    omega
  have hnext : area.size - (count + 1) + 1 = area.size - count := by omega
  rw [List.drop_eq_getElem_cons hlt, getElem_cells hlt, hnext]

theorem contains_cellAt (ha : area.Proper) {i : Nat} (hi : i < area.size) :
    area.contains (area.cellAt i) := by
  obtain ⟨_, hrows, _, hcols⟩ := ha
  have hrow : i / area.width < area.height :=
    (Nat.div_lt_iff_lt_mul area.width_pos).mpr hi
  have hcol : i % area.width < area.width := Nat.mod_lt i area.width_pos
  rw [contains_iff]
  dsimp only [cellAt]
  generalize i / area.width = row at hrow
  generalize i % area.width = col at hcol
  unfold height at hrow
  unfold width at hcol
  refine ⟨rfl, ?_, ?_, ?_, ?_⟩ <;> omega

theorem cellAt_place {i j : Nat} (hj : j < area.width) :
    area.cellAt (i * area.width + j) = ⟨area.sheet, area.top + i, area.left + j⟩ := by
  unfold cellAt
  rw [Nat.mul_comm, Nat.mul_add_div area.width_pos, Nat.div_eq_of_lt hj, Nat.add_zero,
    Nat.mul_add_mod, Nat.mod_eq_of_lt hj]

theorem place_lt_size {i j : Nat} (hi : i < area.height) (hj : j < area.width) :
    i * area.width + j < area.size :=
  calc i * area.width + j < (i + 1) * area.width := by rw [Nat.succ_mul]; omega
    _ ≤ area.size := Nat.mul_le_mul_right _ hi

theorem exists_place (hc : area.contains c) :
    ∃ i < area.height, ∃ j < area.width, c = ⟨area.sheet, area.top + i, area.left + j⟩ := by
  obtain ⟨hsheet, htop, hbottom, hleft, hright⟩ := contains_iff.mp hc
  unfold height width
  refine ⟨c.row - area.top, by omega, c.col - area.left, by omega, ?_⟩
  rw [Nat.add_sub_cancel' htop, Nat.add_sub_cancel' hleft, ← hsheet]

theorem contains_place (ha : area.Proper) {i j : Nat} (hi : i < area.height)
    (hj : j < area.width) :
    area.contains ⟨area.sheet, area.top + i, area.left + j⟩ :=
  cellAt_place hj ▸ contains_cellAt ha (place_lt_size hi hj)

theorem mem_cells_iff (ha : area.Proper) : c ∈ area.cells ↔ area.contains c := by
  unfold cells firstCells
  rw [Nat.min_self, List.mem_map]
  constructor
  · rintro ⟨i, hi, rfl⟩
    exact contains_cellAt ha (List.mem_range.mp hi)
  · intro hc
    obtain ⟨i, hi, j, hj, rfl⟩ := exists_place hc
    exact ⟨_, List.mem_range.mpr (place_lt_size hi hj), cellAt_place hj⟩

theorem cells_eq : area.cells = (List.range area.height).flatMap fun i =>
    (List.range area.width).map fun j => ⟨area.sheet, area.top + i, area.left + j⟩ := by
  unfold cells firstCells
  rw [Nat.min_self]
  unfold size
  generalize area.height = height
  induction height with
  | zero => simp
  | succ n ih =>
      rw [Nat.succ_mul, List.range_add, List.map_append, ih, List.range_succ, List.flatMap_append,
        List.map_map]
      congr 1
      simp only [List.flatMap_singleton]
      refine List.map_congr_left fun j hj => ?_
      exact cellAt_place (List.mem_range.mp hj)

theorem range_filter_lt {n m : Nat} (h : n ≤ m) :
    (List.range m).filter (· < n) = List.range n := by
  obtain ⟨k, rfl⟩ := Nat.exists_eq_add_of_le h
  rw [List.range_add, List.filter_append, List.filter_eq_self.mpr, List.filter_eq_nil_iff.mpr,
    List.append_nil]
  · simp
  · simp

/-- Listing an area from the first corner of a smaller one passes through the smaller one in
order. -/
theorem cells_filter (ha : a.Proper) (hsheet : a.sheet = b.sheet)
    (htop : a.top = b.top) (hleft : a.left = b.left) (hbottom : a.bottom ≤ b.bottom)
    (hright : a.right ≤ b.right) : b.cells.filter (a.contains ·) = a.cells := by
  have hheight : a.height ≤ b.height := by
    unfold height
    omega
  have hwidth : a.width ≤ b.width := by
    unfold width
    omega
  have hcontains (i j : Nat) : a.contains ⟨b.sheet, b.top + i, b.left + j⟩ =
      (decide (i < a.height) && decide (j < a.width)) := by
    have hrows := ha.rows
    have hcols := ha.cols
    rw [Bool.eq_iff_iff, contains_iff]
    simp only [Bool.and_eq_true, decide_eq_true_eq, hsheet, true_and]
    unfold height width
    omega
  -- a row of `b` gives the row of `a` at its start, or nothing below the last row of `a`
  have hrow (i : Nat) : ((List.range b.width).map fun j =>
        (⟨b.sheet, b.top + i, b.left + j⟩ : CellAddress)).filter (a.contains ·) =
      if i < a.height then (List.range a.width).map fun j => ⟨a.sheet, a.top + i, a.left + j⟩
      else [] := by
    rw [List.filter_map]
    simp only [Function.comp_def, hcontains]
    split
    · rename_i hi
      simp only [hi, decide_true, Bool.true_and, range_filter_lt hwidth, hsheet, htop, hleft]
    · rename_i hi
      simp [hi]
  rw [cells_eq, cells_eq, List.filter_flatMap]
  simp only [hrow]
  rw [← range_filter_lt hheight]
  generalize List.range b.height = rows
  induction rows with
  | nil => rfl
  | cons i rows ih =>
      rw [List.flatMap_cons, ih, List.filter_cons]
      by_cases hi : i < a.height
      · simp [hi]
      · simp [hi]

end Area

end Spreadsheet
