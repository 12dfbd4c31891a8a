-- SUMMARY: Which formula cells read which cells and areas.
import Std.Data.TreeMap
import Std.Data.TreeSet
import Spreadsheet.Area.Order

/-! # Dependencies

While a formula is computed, every cell and area it reads is recorded as a precedent of
its cell. The record is kept from both ends, so that the readers of a cell are found
without a search. An area stays one precedent, however many cells it has.
-/

namespace Spreadsheet

open Std

/-- What a formula read. -/
inductive Precedent where
  | cell (cell : CellAddress)
  | area (area : Area)
  deriving DecidableEq, Repr

/-- The area of a precedent, that of one cell being the cell itself. -/
def Precedent.region : Precedent → Area
  | .cell c => .ofCell c
  | .area a => a

instance : Ord Precedent where
  compare := compareLex (compareOn Precedent.ctorIdx) (compareOn Precedent.region)

instance : TransOrd Precedent := inferInstanceAs (TransCmp (compareLex _ _))

instance : LawfulEqOrd Precedent where
  eq_of_compare {p q} h := by
    have h : ((compare p.ctorIdx q.ctorIdx).then (compare p.region q.region)) = .eq := h
    simp only [Ordering.then_eq_eq, LawfulEqOrd.compare_eq_iff_eq] at h
    cases p <;> cases q <;> simp_all [Precedent.ctorIdx, Precedent.region, Area.ofCell_inj]

/-- What formula cells read, kept from the side of what is read and from the side of the
readers. -/
structure Dependencies where
  /-- The readers of each cell. -/
  byCell : TreeMap CellAddress (TreeSet CellAddress) := ∅
  /-- The readers of each area. -/
  byArea : TreeMap Area (TreeSet CellAddress) := ∅
  /-- What each reader read. -/
  reads : TreeMap CellAddress (TreeSet Precedent) := ∅

namespace Dependencies

/-- Adds a member to the set of a key. -/
def link {α β : Type} [Ord α] [Ord β] (sets : TreeMap α (TreeSet β))
    (key : α) (member : β) : TreeMap α (TreeSet β) :=
  sets.alter key fun set? => some ((set?.getD ∅).insert member)

/-- Removes a member from the set of a key. A key whose set is empty is dropped. -/
def unlink {α β : Type} [Ord α] [Ord β] (sets : TreeMap α (TreeSet β))
    (key : α) (member : β) : TreeMap α (TreeSet β) :=
  sets.alter key fun set? =>
    set?.bind fun set =>
      let rest := set.erase member
      if rest.isEmpty then none else some rest

/-- Records that `reader` read `precedent`. -/
def record (deps : Dependencies) (precedent : Precedent) (reader : CellAddress) : Dependencies :=
  let deps := { deps with reads := link deps.reads reader precedent }
  match precedent with
  | .cell cell => { deps with byCell := link deps.byCell cell reader }
  | .area area => { deps with byArea := link deps.byArea area reader }

/-- Drops one precedent of `reader` from the side of the precedent. -/
def detach (reader : CellAddress) (deps : Dependencies) (precedent : Precedent) : Dependencies :=
  match precedent with
  | .cell cell => { deps with byCell := unlink deps.byCell cell reader }
  | .area area => { deps with byArea := unlink deps.byArea area reader }

/-- Forgets everything that `reader` read. Who read `reader` stays recorded. -/
def forget (deps : Dependencies) (reader : CellAddress) : Dependencies :=
  match deps.reads[reader]? with
  | none => deps
  | some precedents =>
    precedents.toList.foldl (detach reader) { deps with reads := deps.reads.erase reader }

/-- What `reader` read. -/
def precedents (deps : Dependencies) (reader : CellAddress) : List Precedent :=
  (deps.reads.getD reader ∅).toList

/-- The cells that read `cell`, by itself or in an area; one that read it in several ways is
listed for each. -/
def readers (deps : Dependencies) (cell : CellAddress) : List CellAddress :=
  (deps.byCell.getD cell ∅).toList ++
    deps.byArea.toList.flatMap fun (area, cells) => if area.contains cell then cells.toList else []

/-- The number of cells that read something. -/
def size (deps : Dependencies) : Nat := deps.reads.size

def isEmpty (deps : Dependencies) : Bool := deps.reads.isEmpty

/-! ## Everything that depends on a cell -/

/-- The cells found so far by a search, in the order they were found. -/
structure Found where
  cells : Array CellAddress := #[]
  seen : TreeSet CellAddress := ∅

/-- Adds a cell that was not found before. -/
def Found.add (found : Found) (cell : CellAddress) : Found :=
  if found.seen.contains cell then found
  else ⟨found.cells.push cell, found.seen.insert cell⟩

/-- Adds the readers of the found cells from `next` on, in turn, for at most `steps` cells. What
was found is its own queue. -/
def search (deps : Dependencies) : (steps next : Nat) → Found → Found
  | 0, _, found => found
  | steps + 1, next, found =>
    match found.cells[next]? with
    | none => found
    | some cell =>
      search deps steps (next + 1) ((deps.readers cell).foldl Found.add found)

/-- The cells that depend on `cell`, directly or through others, the nearest first. It is among
them only if it depends on itself. No cell is found twice and each one read something, so the
search is over after as many steps as there are readers. -/
def dependents (deps : Dependencies) (cell : CellAddress) : List CellAddress :=
  (deps.search deps.size 0 ((deps.readers cell).foldl Found.add {})).cells.toList

end Dependencies

end Spreadsheet
