-- SUMMARY: Areas are sets of cells: what is listed, shared, covered and cut, by the cells contained.
import Spreadsheet.Proofs.Placement

/-!
# Areas as sets of cells

An area is kept as two corners, and each operation on areas is arithmetic of corners. Here each of
them is told by the cells that an area contains. The cells are listed by a walk with two counters
that goes along the rows and turns back to the first column at the end of each.
-/

namespace Spreadsheet

namespace Area

variable {a b area part other : Area} {c : CellAddress} {rows cols : Nat}

/-! ## Walking through an area -/

/-- The cell that a walk gives at a row and a column, and the place where it goes on. -/
def next? (area : Area) : Nat × Nat → Option (CellAddress × Nat × Nat)
  | (row, col) =>
    if area.bottom < row then none
    else some (⟨area.sheet, row, col⟩,
      if area.right < col + 1 then (row + 1, area.left) else (row, col + 1))

/-- A walk from a place that ends after the listed cells. -/
inductive Walks (area : Area) : Nat × Nat → List CellAddress → Prop
  | done {place} : area.next? place = none → Walks area place []
  | step {place place' cell cells} : area.next? place = some (cell, place') →
      Walks area place' cells → Walks area place (cell :: cells)

/-- There is one walk from each place. -/
theorem Walks.unique {place : Nat × Nat} {cells cells' : List CellAddress}
    (h : area.Walks place cells) (h' : area.Walks place cells') : cells = cells' := by
  induction h generalizing cells' with
  | done hnone =>
      cases h' with
      | done => rfl
      | step hsome => cases hnone.symm.trans hsome
  | step hsome _ ih =>
      cases h' with
      | done hnone => cases hnone.symm.trans hsome
      | step hsome' h' =>
          cases hsome.symm.trans hsome'
          rw [ih h']

/-- The rest of a row is walked through before the rows below. -/
theorem Walks.row {row : Nat} {rest : List CellAddress} (hrow : row ≤ area.bottom)
    (hrest : area.Walks (row + 1, area.left) rest) {n col : Nat} (hcol : col + n = area.right) :
    area.Walks (row, col)
      ((List.range (n + 1)).map (fun j => ⟨area.sheet, row, col + j⟩) ++ rest) := by
  induction n generalizing col with
  | zero =>
      refine .step ?_ hrest
      rw [next?, if_neg (by omega), if_pos (by omega)]
      rfl
  | succ n ih =>
      have hnext : area.Walks (row, col + 1) _ := ih (by omega)
      rw [List.range_succ_eq_map, List.map_cons, List.map_map, List.cons_append]
      refine .step ?_ (?_ : area.Walks (row, col + 1) _)
      · rw [next?, if_neg (by omega), if_neg (by omega)]
        rfl
      · simpa only [Function.comp_def, Nat.succ_eq_add_one, Nat.add_assoc, Nat.add_comm 1] using
          hnext

/-- The rows from one on are walked through from top to bottom. -/
theorem Walks.rowsBelow (hcols : area.left ≤ area.right) {n row : Nat} (hrow : row + n = area.bottom + 1) :
    area.Walks (row, area.left) ((List.range n).flatMap fun i =>
      (List.range area.width).map fun j => ⟨area.sheet, row + i, area.left + j⟩) := by
  induction n generalizing row with
  | zero =>
      refine .done ?_
      rw [next?, if_pos (by omega)]
  | succ n ih =>
      have hbelow : area.Walks (row + 1, area.left) _ := ih (by omega)
      have hwidth : area.width = area.right - area.left + 1 := rfl
      rw [List.range_succ_eq_map, List.flatMap_cons, List.flatMap_map]
      refine .row (by omega) ?_ (by omega)
      simpa only [Nat.succ_eq_add_one, Nat.add_assoc, Nat.add_comm 1] using hbelow

/-- The walk from the first corner lists the cells and ends. -/
theorem walks_cells (ha : area.Proper) : area.Walks (area.top, area.left) area.cells := by
  have hrows := ha.rows
  rw [cells_eq]
  apply Walks.rowsBelow ha.cols
  unfold height
  omega

/-! ## Order -/

/-- The first cell comes before the second, row by row. -/
def RowMajor (c d : CellAddress) : Prop := c.row < d.row ∨ c.row = d.row ∧ c.col < d.col

theorem rowMajor_cellAt (area : Area) {i j : Nat} (h : i < j) :
    RowMajor (area.cellAt i) (area.cellAt j) := by
  have hi := Nat.div_add_mod i area.width
  have hj := Nat.div_add_mod j area.width
  have hle : i / area.width ≤ j / area.width := Nat.div_le_div_right (Nat.le_of_lt h)
  unfold RowMajor cellAt
  dsimp only
  rcases Nat.lt_or_eq_of_le hle with hlt | heq
  · left
    omega
  · right
    rw [heq] at hi
    omega

theorem pairwise_cells (area : Area) : area.cells.Pairwise RowMajor := by
  unfold cells firstCells
  exact List.pairwise_map.mpr (List.pairwise_lt_range.imp area.rowMajor_cellAt)

/-- A list in row-major order has no cell twice. -/
theorem nodup_cells (area : Area) : area.cells.Nodup := by
  refine area.pairwise_cells.imp fun {c d} h heq => ?_
  subst heq
  unfold RowMajor at h
  omega

/-! ## Common cells -/

theorem overlaps_iff (ha : a.Proper) (hb : b.Proper) :
    a.overlaps b ↔ ∃ c, a.contains c ∧ b.contains c := by
  obtain ⟨_, _, _, _⟩ := ha
  obtain ⟨_, _, _, _⟩ := hb
  simp only [overlaps, Bool.and_eq_true, beq_iff_eq, decide_eq_true_eq, contains_iff]
  constructor
  · rintro ⟨⟨⟨⟨hsheet, _⟩, _⟩, _⟩, _⟩
    -- the later of the first rows and the later of the first columns
    refine ⟨⟨a.sheet, max a.top b.top, max a.left b.left⟩, ⟨rfl, ?_⟩, hsheet, ?_⟩ <;> dsimp only <;>
      omega
  · rintro ⟨c, ⟨hsheet, _⟩, hsheet', _⟩
    refine ⟨⟨⟨⟨hsheet.symm.trans hsheet', ?_⟩, ?_⟩, ?_⟩, ?_⟩ <;> omega

theorem overlaps_comm (a b : Area) : a.overlaps b = b.overlaps a := by
  rw [Bool.eq_iff_iff]
  simp only [overlaps, Bool.and_eq_true, beq_iff_eq, decide_eq_true_eq, eq_comm (a := a.sheet)]
  tauto

/-! ## The least area around two -/

theorem bounding_comm (hsheet : a.sheet = b.sheet) : a.bounding b = b.bounding a := by
  unfold bounding
  rw [if_pos hsheet, if_pos hsheet.symm, hsheet, Nat.min_comm a.top, Nat.min_comm a.left,
    Nat.max_comm a.bottom, Nat.max_comm a.right]
  grind

theorem bounding_eq_error_iff : (∃ fault, a.bounding b = .error fault) ↔ a.sheet ≠ b.sheet := by
  unfold bounding
  split <;> simp [*]

/-- The area around two contains the cells of both. -/
theorem contains_bounding (h : a.bounding b = .ok area) (hc : a.contains c ∨ b.contains c) :
    area.contains c := by
  unfold bounding at h
  split at h
  · rename_i hsheet
    cases h
    rcases hc with hc | hc
    · obtain ⟨hc, _⟩ := contains_iff.mp hc
      exact contains_iff.mpr ⟨hc, by dsimp only; omega⟩
    · obtain ⟨hc, _⟩ := contains_iff.mp hc
      exact contains_iff.mpr ⟨hc.trans hsheet.symm, by dsimp only; omega⟩
  · cases h

theorem Proper.contains_bottomRight (ha : a.Proper) : a.contains a.bottomRight :=
  contains_iff.mpr ⟨rfl, ha.rows, Nat.le_refl _, ha.cols, Nat.le_refl _⟩

/-- An area with the corners of two areas has all cells of the area around them. -/
theorem bounding_least (ha : a.Proper) (hb : b.Proper) (h : a.bounding b = .ok area)
    (hother : ∀ c, a.contains c ∨ b.contains c → other.contains c) (hc : area.contains c) :
    other.contains c := by
  obtain ⟨hsheet, _⟩ := contains_iff.mp (hother _ (.inl (contains_topLeft ha)))
  have := contains_iff.mp (hother _ (.inl ha.contains_bottomRight))
  have := contains_iff.mp (hother _ (.inr (contains_topLeft hb)))
  have := contains_iff.mp (hother _ (.inr hb.contains_bottomRight))
  unfold topLeft at *
  unfold bottomRight at *
  unfold bounding at h
  split at h
  · cases h
    obtain ⟨hc, _⟩ := contains_iff.mp hc
    refine contains_iff.mpr ⟨hc.trans hsheet, ?_⟩
    dsimp only at *
    omega
  · cases h

/-! ## Parts -/

theorem within?_eq_none_iff (ha : area.Proper) :
    area.within? rows cols = none ↔ ∀ c, area.contains c → ¬ (c.row ≤ rows ∧ c.col ≤ cols) := by
  constructor
  · intro h c hc hle
    have hany : (area.within? rows cols).any (·.contains c) :=
      (any_within?_contains rows cols).mpr ⟨hc, hle⟩
    simp [h] at hany
  · intro h
    have hfirst := h _ (contains_topLeft ha)
    dsimp only [topLeft] at hfirst
    unfold within?
    rw [if_pos (by omega)]

/-- Whole columns are cut after a row, but keep the first. -/
theorem contains_clip_columns (ha : area.WellFormed) (hkind : area.kind = .columns) :
    (area.clip rows cols).contains c ↔ area.contains c ∧ c.row ≤ max rows 1 := by
  obtain ⟨htop, hbottom⟩ := ha.wholeColumns hkind
  have hrows := ha.rows
  simp only [clip, hkind, contains_iff, and_assoc]
  refine and_congr_right fun _ => ?_
  omega

/-- Whole rows are cut after a column, but keep the first. -/
theorem contains_clip_rows (ha : area.WellFormed) (hkind : area.kind = .rows) :
    (area.clip rows cols).contains c ↔ area.contains c ∧ c.col ≤ max cols 1 := by
  obtain ⟨hleft, hright⟩ := ha.wholeRows hkind
  have hcols := ha.cols
  simp only [clip, hkind, contains_iff, and_assoc]
  refine and_congr_right fun _ => ?_
  omega

/-- **Areas are sets of cells.** The walk through an area lists the cells that it contains, each
once, row by row, and ends. Areas overlap exactly if they share a cell. Two areas on one sheet have a
least area around them, whichever comes first. The part in the first rows and columns has exactly the
cells there, and whole columns, or whole rows, are cut to their first cells but never to none. -/
theorem areas_are_cell_sets (a b : Area) (rows cols : Nat) (ha : a.Placed) (hb : b.Placed) :
    ((∀ cells, a.Walks (a.top, a.left) cells ↔ cells = a.cells) ∧
      (∀ c, c ∈ a.cells ↔ a.contains c) ∧ a.cells.length = a.size ∧ a.cells.Nodup ∧
        a.cells.Pairwise RowMajor) ∧
    ((a.overlaps b ↔ ∃ c, a.contains c ∧ b.contains c) ∧ a.overlaps b = b.overlaps a) ∧
    (((∃ fault, a.bounding b = .error fault) ↔ a.sheet ≠ b.sheet) ∧
      (a.sheet = b.sheet → ∃ area : Area, a.bounding b = .ok area ∧ b.bounding a = .ok area ∧
        area.Placed ∧ (∀ c, a.contains c ∨ b.contains c → area.contains c) ∧
        ∀ other : Area, other.Placed → (∀ c, a.contains c ∨ b.contains c → other.contains c) →
          ∀ c, area.contains c → other.contains c)) ∧
    ((a.within? rows cols = none ↔ ∀ c, a.contains c → ¬ (c.row ≤ rows ∧ c.col ≤ cols)) ∧
      ∀ part, a.within? rows cols = some part →
        ∀ c, part.contains c ↔ a.contains c ∧ c.row ≤ rows ∧ c.col ≤ cols) ∧
    (a.kind = .columns →
      ∀ c, (a.clip rows cols).contains c ↔ a.contains c ∧ c.row ≤ max rows 1) ∧
    (a.kind = .rows →
      ∀ c, (a.clip rows cols).contains c ↔ a.contains c ∧ c.col ≤ max cols 1) := by
  have hproper := ha.toProper
  refine ⟨⟨fun cells => ?_, fun c => mem_cells_iff hproper, a.length_cells, a.nodup_cells,
      a.pairwise_cells⟩,
    ⟨overlaps_iff hproper hb.toProper, overlaps_comm a b⟩,
    ⟨bounding_eq_error_iff, fun hsheet => ?_⟩,
    ⟨within?_eq_none_iff hproper, fun part hpart c => contains_within?_iff hpart⟩,
    fun hkind c => contains_clip_columns ha.toWellFormed hkind,
    fun hkind c => contains_clip_rows ha.toWellFormed hkind⟩
  · constructor
    · intro h
      exact h.unique (walks_cells hproper)
    · rintro rfl
      exact walks_cells hproper
  · cases h : a.bounding b with
    | error fault => exact absurd hsheet (bounding_eq_error_iff.mp ⟨fault, h⟩)
    | ok area =>
        exact ⟨area, rfl, bounding_comm hsheet ▸ h, ha.bounding hb h,
          fun c hc => contains_bounding h hc,
          fun other _ hother c hc => bounding_least hproper hb.toProper h hother hc⟩

/-- Whole columns and a block that shares cells with them. -/
theorem areas_are_cell_sets_columns :
    (wholeColumns "Sheet1" 2 3).overlaps (ofCorners "Sheet1" 4 1 2 2) ∧
      (ofCorners "Sheet1" 4 1 2 2).Walks (2, 1) (ofCorners "Sheet1" 4 1 2 2).cells ∧
      ((wholeColumns "Sheet1" 2 3).clip 5 7).contains ⟨"Sheet1", 5, 3⟩ := by
  have hcolumns : (wholeColumns "Sheet1" 2 3).Placed :=
    ⟨⟨@InGrid.wholeColumns "Sheet1" 2 3 (by decide) (by decide), fun _ => Grid.allRows, nofun⟩,
      by decide⟩
  have hblock : (ofCorners "Sheet1" 4 1 2 2).Placed :=
    ⟨.ofCells (@InGrid.ofCorners "Sheet1" 4 1 2 2 (by decide) (by decide) (by decide) (by decide)) rfl,
      by decide⟩
  obtain ⟨-, ⟨hoverlaps, -⟩, -, -, hclip, -⟩ := areas_are_cell_sets _ _ 5 7 hcolumns hblock
  obtain ⟨⟨hwalks, -⟩, -⟩ := areas_are_cell_sets _ _ 5 7 hblock hcolumns
  exact ⟨hoverlaps.mpr ⟨⟨"Sheet1", 2, 2⟩, by decide, by decide⟩, (hwalks _).mpr rfl,
    (hclip rfl _).mpr ⟨by decide, by decide⟩⟩

end Area

end Spreadsheet
