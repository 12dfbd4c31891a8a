-- SUMMARY: The order of cells and areas, in which sets of them are kept.
import Std.Data.TreeSet
import Spreadsheet.Area

/-! # The order of cells and areas

Cells are ordered by sheet, then row by row and from left to right. Areas are ordered by
their first corner, then by their last, then by how they were written. Both orders are
lawful: what compares equal is equal.
-/

namespace Spreadsheet

open Std

instance : Ord CellAddress where
  compare := compareLex (compareOn CellAddress.sheet)
    (compareLex (compareOn CellAddress.row) (compareOn CellAddress.col))

instance : TransOrd CellAddress := inferInstanceAs (TransCmp (compareLex _ _))

instance : LawfulEqOrd CellAddress where
  eq_of_compare {a b} h := by
    have h : ((compare a.sheet b.sheet).then
        ((compare a.row b.row).then (compare a.col b.col))) = .eq := h
    simp only [Ordering.then_eq_eq, LawfulEqOrd.compare_eq_iff_eq] at h
    obtain ⟨_, _, _⟩ := a
    obtain ⟨_, _, _⟩ := b
    simp_all

instance : Ord Area where
  compare := compareLex (compareOn Area.topLeft)
    (compareLex (compareOn Area.bottomRight) (compareOn (·.kind.ctorIdx)))

instance : TransOrd Area := inferInstanceAs (TransCmp (compareLex _ _))

instance : LawfulEqOrd Area where
  eq_of_compare {a b} h := by
    have h : ((compare a.topLeft b.topLeft).then ((compare a.bottomRight b.bottomRight).then
        (compare a.kind.ctorIdx b.kind.ctorIdx))) = .eq := h
    simp only [Ordering.then_eq_eq, LawfulEqOrd.compare_eq_iff_eq, Area.topLeft,
      Area.bottomRight, CellAddress.mk.injEq] at h
    obtain ⟨_, _, _, _, _, k⟩ := a
    obtain ⟨_, _, _, _, _, l⟩ := b
    cases k <;> cases l <;> simp_all [AreaKind.ctorIdx]

end Spreadsheet
