-- SUMMARY: Moving an area and giving it another size.
import Spreadsheet.Area

/-! # Moving and sizing areas

An area is moved by whole rows and columns and given a height and a width. A negative
size reaches up or left from the moved corner. The result has to lie in the grid.
-/

namespace Spreadsheet

open Text

namespace Area

/-- The first and the last of `size` rows or columns that start at `anchor`, going backwards
when `size` is negative. None if one of them does not fit a word. -/
def span? (anchor size : Int) : Option (Int × Int) :=
  if 0 < size then (word? (anchor + (size - 1))).map (anchor, ·)
  else (word? (anchor + (size + 1))).map (·, anchor)

/-- The area of `height` rows and `width` columns whose corner lies `dRow` rows below and `dCol`
columns right of `base`. -/
def offsetCell (base : CellAddress) (dRow dCol height width : Int) : Except Fault Area := do
  if height = 0 ∨ width = 0 then throw (.emptySize height width)
  let beyond := Fault.outOfBounds (clampWord (base.row + dRow)) (clampWord (base.col + dCol))
  let rows := (word? (base.row + dRow)).bind (span? · height)
  let cols := (word? (base.col + dCol)).bind (span? · width)
  match rows, cols with
  | some (top, bottom), some (left, right) =>
    if ¬ (Grid.HasRow top ∧ Grid.HasCol left) then throw (.outOfBounds top left)
    if ¬ (Grid.HasRow bottom ∧ Grid.HasCol right) then throw (.outOfBounds bottom right)
    return ofCorners base.sheet top.toNat left.toNat bottom.toNat right.toNat
  | _, _ => throw beyond

/-- The area moved from its top left corner, of its own size unless another is given. Whole
columns and whole rows stay so if the result still reaches across the grid. -/
def offset (base : Area) (dRow dCol : Int) (height width : Option Int) : Except Fault Area := do
  let moved ← offsetCell base.topLeft dRow dCol (height.getD base.height) (width.getD base.width)
  let fullHeight := moved.top == 1 && moved.bottom == Grid.maxRows
  let fullWidth := moved.left == 1 && moved.right == Grid.maxCols
  let kind := match base.kind with
    | .columns => if fullHeight then .columns else .cells
    | .rows => if fullWidth then .rows else .cells
    | .cells => .cells
  return { moved with kind }

end Area

end Spreadsheet
