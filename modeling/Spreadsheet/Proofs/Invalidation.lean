-- SUMMARY: What a write drops from the memory, and what stays.
import Spreadsheet.Proofs.Runs

/-!
# Invalidation

A write drops the value of the cell and of everything that is recorded to have read it,
directly or through others. All other values stay, and so do their precedents.
-/

namespace Spreadsheet

open Std

namespace Memory

variable {m : Memory} {x y a : CellAddress} {v : Value} {p : Precedent}

/-- The cell is recorded to have read the other one, by itself or in an area. -/
def Reads (m : Memory) (x y : CellAddress) : Prop := ∃ p ∈ m.precedents x, p.region.contains y

theorem mem_dependents (hm : m.dependencies.Mirrored) :
    x ∈ m.dependencies.dependents a ↔ Relation.TransGen m.Reads x a := by
  have hreads : (fun x y => x ∈ m.dependencies.readers y) = m.Reads :=
    funext₂ fun x y => propext (Dependencies.mem_readers hm)
  rw [Dependencies.mem_dependents hm, hreads]

theorem getElem?_foldl_erase (cells : List CellAddress) (values : TreeMap CellAddress Value) :
    (cells.foldl TreeMap.erase values)[x]? = if x ∈ cells then none else values[x]? := by
  induction cells generalizing values with
  | nil => simp
  | cons c cells ih =>
      simp only [List.foldl_cons, ih, List.mem_cons, TreeMap.getElem?_erase,
        LawfulEqCmp.compare_eq_iff_eq]
      by_cases hc : c = x
      · simp [hc]
      · simp [hc, Ne.symm hc]

/-- What is remembered after a write was so before. -/
theorem values_of_invalidate (h : (m.invalidate a).values[x]? = some v) :
    m.values[x]? = some v := by
  simp only [invalidate, getElem?_foldl_erase, TreeMap.getElem?_erase] at h
  split at h
  · cases h
  · split at h
    · cases h
    · exact h

theorem values_invalidate (hm : m.dependencies.Mirrored) :
    (m.invalidate a).values[x]? = some v ↔
      m.values[x]? = some v ∧ x ≠ a ∧ ¬ Relation.TransGen m.Reads x a := by
  rw [← mem_dependents hm]
  simp only [invalidate, getElem?_foldl_erase, TreeMap.getElem?_erase,
    LawfulEqCmp.compare_eq_iff_eq]
  by_cases hdependent : x ∈ m.dependencies.dependents a
  · simp [hdependent]
  · by_cases hx : x = a
    · simp [hx]
    · simp [hdependent, hx, Ne.symm hx]

/-- A cell stays remembered unless it is the written one or is recorded to depend on it. -/
theorem remembers_invalidate (hm : m.dependencies.Mirrored) :
    (m.invalidate a).Remembers x ↔
      m.Remembers x ∧ x ≠ a ∧ ¬ Relation.TransGen m.Reads x a := by
  simp only [Remembers, values_invalidate hm, exists_and_right]

theorem mem_precedents_invalidate :
    p ∈ (m.invalidate a).precedents y ↔ a ≠ y ∧ p ∈ m.precedents y :=
  Dependencies.mem_precedents_forget

theorem mirrored_invalidate (hm : m.dependencies.Mirrored) :
    (m.invalidate a).dependencies.Mirrored :=
  hm.forget a

end Memory

end Spreadsheet
