-- SUMMARY: References read from text lie in the grid.
import Spreadsheet.Function.Registry
import Spreadsheet.Proofs.Area
import Spreadsheet.Reference.R1C1

/-!
# References read from text

Whatever text a reference is read from, its area lies in the grid. What an expression that a
formula is read as can have at its nodes is named here and proved once the grammar is at hand.
-/

namespace Spreadsheet

/-! ## Rows, columns and coordinates -/

namespace Grid

theorem le_columnFrom {n col : Nat} {cs : List Char} (h : columnFrom n cs = .ok col) :
    n ≤ col := by
  induction cs generalizing n with
  | nil => exact Nat.le_of_eq (Except.ok.inj h)
  | cons c cs ih =>
      unfold columnFrom at h
      split at h
      · have hle := ih h
        omega
      · cases h

theorem hasCol_of_columnOfLetters {cs : List Char} {col : Nat} (h : columnOfLetters cs = .ok col) :
    HasCol col := by
  unfold columnOfLetters at h
  simp only [unless_eq_ok, bind_eq_ok, pure_eq_ok] at h
  obtain ⟨hne, -, col', hcol, hle, rfl⟩ := h
  refine ⟨?_, by omega⟩
  cases cs with
  | nil => exact absurd rfl hne
  | cons c cs =>
      unfold columnFrom at hcol
      split at hcol
      · have hle := le_columnFrom hcol
        unfold letterNumber at hle
        omega
      · cases hcol

theorem hasRow_of_readRow? {cs : List Char} {row : Nat} (h : readRow? cs = some row) :
    HasRow row :=
  of_decide_eq_true (Option.filter_eq_some_iff.mp h).2

theorem hasCol_of_readCol? {cs : List Char} {col : Nat} (h : readCol? cs = some col) :
    HasCol col :=
  of_decide_eq_true (Option.filter_eq_some_iff.mp h).2

end Grid

namespace Coord

/-- Row and column count from one. -/
def Positive (coord : Coord) : Prop := 1 ≤ coord.row ∧ 1 ≤ coord.col

/-- The coordinate is one of the grid. -/
def InGrid (coord : Coord) : Prop := Grid.HasRow coord.row ∧ Grid.HasCol coord.col

theorem InGrid.positive {coord : Coord} (h : coord.InGrid) : coord.Positive :=
  ⟨Int.ofNat_le.mp h.1.1, Int.ofNat_le.mp h.2.1⟩

theorem inGrid_of_ofChars {cs : List Char} {coord : Coord} (h : ofChars cs = .ok coord) :
    coord.InGrid := by
  unfold ofChars at h
  simp only [unless_eq_ok, bind_eq_ok] at h
  obtain ⟨-, -, col, hcol, h⟩ := h
  split at h
  · rename_i row hrow
    cases h
    exact ⟨Grid.hasRow_of_readRow? hrow, Grid.hasCol_of_columnOfLetters hcol⟩
  · simp [throw_eq_ok] at h

end Coord

namespace Corners

/-- Rows and columns count from one, and the corners are in order. -/
structure Proper (corners : Corners) : Prop where
  first : corners.first.Positive
  rows : corners.first.row ≤ corners.last.row
  cols : corners.first.col ≤ corners.last.col

/-- The corners are in order and end inside the grid. -/
structure InGrid (corners : Corners) : Prop extends corners.Proper where
  bottom_le : corners.last.row ≤ Grid.maxRows
  right_le : corners.last.col ≤ Grid.maxCols

theorem Proper.on {corners : Corners} (h : corners.Proper) (sheet : String) :
    (corners.on sheet).Proper :=
  ⟨h.first.1, h.rows, h.first.2, h.cols⟩

theorem InGrid.on {corners : Corners} (h : corners.InGrid) (sheet : String) :
    (corners.on sheet).InGrid :=
  ⟨h.toProper.on sheet, h.bottom_le, h.right_le⟩

theorem InGrid.ofCoords {a b : Coord} (ha : a.InGrid) (hb : b.InGrid) (kind : AreaKind) :
    InGrid ⟨(Coord.corners a b).1, (Coord.corners a b).2, kind⟩ := by
  obtain ⟨⟨_, _⟩, ⟨_, _⟩⟩ := ha
  obtain ⟨⟨_, _⟩, ⟨_, _⟩⟩ := hb
  refine ⟨⟨⟨?_, ?_⟩, ?_, ?_⟩, ?_, ?_⟩
  all_goals
    simp only [Coord.corners]
    omega

end Corners

namespace Reference

theorem inGrid_of_readAbsoluteR1C1? {cs : List Char} {coord : Coord}
    (h : readAbsoluteR1C1? cs = some coord) : coord.InGrid := by
  unfold readAbsoluteR1C1? at h
  split at h
  · cases h
  split at h
  · split at h
    · cases h
    split at h
    · obtain ⟨row, hrow, h⟩ := Option.bind_eq_some_iff.mp h
      obtain ⟨col, hcol, h⟩ := Option.bind_eq_some_iff.mp h
      cases h
      exact ⟨Grid.hasRow_of_readRow? hrow, Grid.hasCol_of_readCol? hcol⟩
    · cases h
  · cases h

theorem inGrid_of_readCoord? {cs : List Char} {coord : Coord} (h : readCoord? cs = some coord) :
    coord.InGrid := by
  unfold readCoord? at h
  split at h
  · rename_i coord' hcoord
    cases h
    exact Coord.inGrid_of_ofChars hcoord
  · exact inGrid_of_readAbsoluteR1C1? h

theorem hasCol_of_readColumn? {cs : List Char} {col : Nat × Bool} (h : readColumn? cs = some col) :
    Grid.HasCol col.1 := by
  unfold readColumn? at h
  dsimp only at h
  split at h
  · rename_i hcol
    cases h
    exact Grid.hasCol_of_columnOfLetters hcol
  · cases h

theorem hasRow_of_readRow? {cs : List Char} {row : Nat × Bool} (h : readRow? cs = some row) :
    Grid.HasRow row.1 := by
  unfold readRow? at h
  obtain ⟨row', hrow, h⟩ := Option.map_eq_some_iff.mp h
  cases h
  exact Grid.hasRow_of_readRow? hrow

theorem inGrid_of_readSides? {first second : List Char} {corners : Corners}
    (h : readSides? first second = some corners) : corners.InGrid := by
  have hfirstRow : Grid.HasRow (1 : Nat) := by decide
  have hlastRow : Grid.HasRow Grid.maxRows := by decide
  have hfirstCol : Grid.HasCol (1 : Nat) := by decide
  have hlastCol : Grid.HasCol Grid.maxCols := by decide
  unfold readSides? at h
  split at h
  · rename_i ha hb
    cases h
    exact .ofCoords (inGrid_of_readCoord? ha) (inGrid_of_readCoord? hb) _
  · split at h
    · rename_i hfirst hsecond
      cases h
      exact .ofCoords ⟨hfirstRow, hasCol_of_readColumn? hfirst⟩
        ⟨hlastRow, hasCol_of_readColumn? hsecond⟩ _
    · split at h
      · rename_i hfirst hsecond
        cases h
        exact .ofCoords ⟨hasRow_of_readRow? hfirst, hfirstCol⟩
          ⟨hasRow_of_readRow? hsecond, hlastCol⟩ _
      · cases h

theorem inGrid_of_readCorners {cs : List Char} {corners : Corners}
    (h : readCorners cs = .ok corners) : corners.InGrid := by
  unfold readCorners at h
  dsimp only at h
  split at h
  · rename_i corners' hcorners
    cases h
    split at hcorners
    · obtain ⟨coord, hcoord, rfl⟩ := Option.map_eq_some_iff.mp hcorners
      have hgrid := inGrid_of_readCoord? hcoord
      exact ⟨⟨hgrid.positive, Nat.le_refl _, Nat.le_refl _⟩, Int.ofNat_le.mp hgrid.1.2,
        Int.ofNat_le.mp hgrid.2.2⟩
    · exact inGrid_of_readSides? hcorners
  · cases h

theorem inGrid_of_readArea {cs : List Char} {sheet : String} {area : Area}
    (h : readArea cs sheet = .ok area) : area.InGrid := by
  unfold readArea at h
  simp only [bind_eq_ok, unless_eq_ok, mapError_eq_ok, pure_eq_ok] at h
  obtain ⟨⟨named, body⟩, -, h⟩ := h
  obtain ⟨-, corners, hcorners, rfl⟩ := h
  exact (inGrid_of_readCorners hcorners).on _

theorem cellInGrid_eq_ok {sheet : String} {row col : Int} {cell : CellAddress}
    (h : cellInGrid sheet row col = .ok cell) :
    (Grid.HasRow row ∧ Grid.HasCol col) ∧ cell = ⟨sheet, row.toNat, col.toNat⟩ := by
  unfold cellInGrid at h
  split at h
  · rename_i hgrid
    exact ⟨hgrid, (Except.ok.inj h).symm⟩
  · cases h

theorem inGrid_of_readCountedArea {cs : List Char} {base : CellAddress} {area : Area}
    (h : readCountedArea cs base = .ok area) : area.InGrid := by
  unfold readCountedArea at h
  simp only [bind_eq_ok, mapError_eq_ok] at h
  obtain ⟨⟨named, body⟩, -, h⟩ := h
  dsimp only at h
  split at h
  · simp only [bind_eq_ok, pure_eq_ok] at h
    obtain ⟨a, ha, b, hb, rfl⟩ := h
    obtain ⟨⟨hrow₁, hcol₁⟩, rfl⟩ := cellInGrid_eq_ok ha
    obtain ⟨⟨hrow₂, hcol₂⟩, rfl⟩ := cellInGrid_eq_ok hb
    exact .ofCorners hrow₁ hcol₁ hrow₂ hcol₂
  · split at h
    · simp only [unless_eq_ok, pure_eq_ok, not_not] at h
      obtain ⟨hfirst, hlast, rfl⟩ := h
      exact .wholeRows hfirst hlast
    · split at h
      · simp only [unless_eq_ok, pure_eq_ok, not_not] at h
        obtain ⟨hfirst, hlast, rfl⟩ := h
        exact .wholeColumns hfirst hlast
      · simp [throw_eq_ok] at h

end Reference

/-! ## Expressions -/

namespace Formula

namespace Expr

/-- A reference has rows and columns that count from one, and its corners are in order. -/
def ProperNode : Expr → Prop
  | .cell _ coord => coord.Positive
  | .area _ corners => corners.Proper
  | _ => True

/-- All references in the expression are proper. -/
def Proper (e : Expr) : Prop := ∀ node ∈ e.nodes, node.ProperNode

/-- What text can be read as: a reference in the grid, or any constant but the marker of a
circle. -/
def WrittenNode : Expr → Prop
  | .literal s => s ≠ .error .circular
  | .cell _ coord => coord.InGrid
  | .area _ corners => corners.InGrid
  | _ => True

/-- All nodes of the expression can be read from text. -/
def Written (e : Expr) : Prop := ∀ node ∈ e.nodes, node.WrittenNode

theorem Written.proper {e : Expr} (h : e.Written) : e.Proper := by
  intro node hnode
  have hwritten := h node hnode
  cases node with
  | cell sheet? coord => exact Coord.InGrid.positive hwritten
  | area sheet? corners => exact Corners.InGrid.toProper hwritten
  | _ => trivial

end Expr

end Formula

namespace Registry

variable {registry : Registry} {text : String} {e : Formula.Expr}

/-- A formula that is read has no call of a wrong number of arguments. -/
theorem readFormula_eq_ok :
    registry.readFormula text = .ok e ↔
      Formula.Expr.ofText text = .ok e ∧ ∀ node ∈ e.nodes, registry.callFailure? node = none := by
  unfold readFormula
  simp only [bind_eq_ok, mapError_eq_ok]
  have hcount : registry.countFailure? e = none ↔
      ∀ node ∈ e.nodes, registry.callFailure? node = none := List.findSome?_eq_none_iff
  constructor
  · rintro ⟨e', he, h⟩
    split at h
    · simp [throw_eq_ok] at h
    · rename_i hnone
      cases h
      exact ⟨he, hcount.mp hnone⟩
  · rintro ⟨he, hnone⟩
    refine ⟨e, he, ?_⟩
    rw [hcount.mpr hnone]
    rfl

end Registry

end Spreadsheet
