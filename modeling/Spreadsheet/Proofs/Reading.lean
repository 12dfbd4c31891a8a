-- SUMMARY: Reading an area asks only for cells in it, and hardly notices an extended sheet.
import Spreadsheet.Proofs.Area
import Spreadsheet.Proofs.Expression
import Spreadsheet.Proofs.Source

/-!
# Reading areas

Every cell that the reading of an area asks for lies in the area that was noted. When the
used part of a sheet grows by one write, readings that are not about the written cell ask
for the same cells and for blanks.
-/

namespace Spreadsheet

open Inquiry

namespace Site

variable {site site' : Site} {area block : Area} {used used' : Option Area}
  {good spare : CellAddress → Prop} {stable : Reading → Prop}

/-! ## What is asked for -/

theorem asksOnly_readCells {allowed : CellAddress → Prop}
    (hallowed : ∀ index < block.size, allowed (block.cellAt index)) {count : Nat}
    (hcount : count ≤ block.size) (read : Array Scalar) :
    (readCells block used count read).AsksOnly allowed := by
  induction count generalizing read with
  | zero => trivial
  | succ count ih =>
      unfold readCells
      dsimp only
      split
      · exact ⟨hallowed _ (by omega), fun v => ih (by omega) _⟩
      · exact ih (by omega) _

theorem asksOnly_readBlock (hblock : block.Proper) :
    (readBlock block used).AsksOnly fun c => block.contains c :=
  (asksOnly_readCells (fun _ => Area.contains_cellAt hblock) (Nat.le_refl _) _).bind
    fun _ => trivial

theorem asksOnly_readArea (ha : area.Proper) :
    (site.readArea area).AsksOnly fun c => area.contains c := by
  unfold readArea
  split
  · exact ⟨Area.contains_topLeft ha, fun v => trivial⟩
  · dsimp only
    unfold AsksOnly
    split
    · trivial
    · refine ((asksOnly_readBlock (ha.clip _ _)).mono fun c hc => ?_).bind fun _ => trivial
      exact Area.contains_of_clip ha hc

theorem asksOnly_readUsed (ha : area.Proper) :
    (site.readUsed area).AsksOnly fun c => area.contains c := by
  unfold readUsed
  dsimp only
  unfold AsksOnly
  split
  · rename_i used hused
    refine (asksOnly_readBlock (ha.within? hused)).mono fun c hc => ?_
    exact ((Area.contains_within?_iff hused).mp hc).1
  · trivial

/-- What is asked for lies in the area, which was noted as a whole. -/
theorem announced_readArea (ha : area.Proper) (noted : List Reading) :
    (site.readArea area).Announced (fun _ => True) noted := by
  have hasks := @asksOnly_readArea site area ha
  unfold readArea at hasks ⊢
  split
  · refine ⟨⟨.cell area.topLeft, List.mem_cons_self, ?_⟩, fun v => trivial⟩
    exact Area.contains_ofCell.mpr rfl
  · rename_i hsingle
    rw [if_neg hsingle] at hasks
    exact announced_note hasks

theorem announced_readUsed (ha : area.Proper) (noted : List Reading) :
    (site.readUsed area).Announced (fun _ => True) noted := by
  have hasks := @asksOnly_readUsed site area ha
  unfold readUsed at hasks ⊢
  exact announced_note hasks

/-! ## What is noted -/

variable {answers : Answers}

theorem readings_readCells {α : Type} {f : Array Scalar → Inquiry α}
    (hf : ∀ cells, (f cells).readings answers = []) (count : Nat) (read : Array Scalar) :
    ((readCells block used count read).bind f).readings answers = [] := by
  induction count generalizing read with
  | zero => exact hf read
  | succ count ih =>
      unfold readCells
      dsimp only
      split
      · unfold Inquiry.bind readings
        split
        · exact ih _
        · rfl
      · exact ih _

/-- An area is noted once. -/
theorem eq_of_mem_readings {reading : Reading}
    (h : reading ∈ (site.readArea area).readings answers) :
    reading = if area.isSingleCell then .cell area.topLeft else .table area := by
  unfold readArea at h
  split at h
  · rename_i hsingle
    rw [if_pos hsingle]
    unfold readCell readings readings at h
    split at h <;> exact List.mem_singleton.mp h
  · rename_i hsingle
    rw [if_neg hsingle]
    dsimp only at h
    unfold readings at h
    split at h
    · exact List.mem_singleton.mp h
    · rw [readBlock, Inquiry.bind_assoc, readings_readCells fun _ => rfl] at h
      exact List.mem_singleton.mp h
end Site

/-! ## Extended sheets -/

namespace Site

variable {site site' : Site} {area block : Area} {used used' : Option Area}
  {good spare : CellAddress → Prop} {stable : Reading → Prop} {a : CellAddress}

/-! ## Blocks -/

/-- A block read with a larger used part asks for spare cells and gives the same table. -/
theorem padded_readCells (hblock : block.Proper) (hgood : ∀ c, block.contains c → good c)
    (hused : ∀ c, block.contains c → used.any (·.contains c) → used'.any (·.contains c))
    (hspare : ∀ c, block.contains c → ¬ used.any (·.contains c) → used'.any (·.contains c) →
      spare c) {count : Nat} (hcount : count ≤ block.size) (read : Array Scalar) :
    Padded good spare stable Eq (readCells block used count read)
      (readCells block used' count read) := by
  induction count generalizing read with
  | zero => exact .done rfl
  | succ count ih =>
      have hcell : block.contains (block.cellAt (block.size - (count + 1))) :=
        Area.contains_cellAt hblock (by omega)
      unfold readCells
      dsimp only
      by_cases h : used.any (·.contains (block.cellAt (block.size - (count + 1))))
      · rw [if_pos h, if_pos (hused _ hcell h)]
        exact .ask (hgood _ hcell) fun v => ih (by omega) _
      · rw [if_neg h]
        by_cases h' : used'.any (·.contains (block.cellAt (block.size - (count + 1))))
        · rw [if_pos h']
          exact .spare (hspare _ hcell h h') (ih (by omega) _)
        · rw [if_neg h']
          exact ih (by omega) _

theorem padded_readBlock (hblock : block.Proper) (hgood : ∀ c, block.contains c → good c)
    (hused : ∀ c, block.contains c → used.any (·.contains c) → used'.any (·.contains c))
    (hspare : ∀ c, block.contains c → ¬ used.any (·.contains c) → used'.any (·.contains c) →
      spare c) :
    Padded good spare stable Eq (readBlock block used) (readBlock block used') := by
  refine (padded_readCells hblock hgood hused hspare (Nat.le_refl _) _).bind
    fun cells cells' h => ?_
  exact .done (h ▸ rfl)

/-- Asks for cells one after the other and adds their scalars to `read`. -/
def askAll : List CellAddress → Array Scalar → Inquiry (Array Scalar)
  | [], read => .done read
  | c :: cs, read => .ask c fun v => askAll cs (read.push v.toScalar)

/-- A block that is used as a whole is asked for as a whole. -/
theorem readCells_self (hblock : block.Proper) {count : Nat} (hcount : count ≤ block.size)
    (read : Array Scalar) :
    readCells block (some block) count read =
      askAll (block.cells.drop (block.size - count)) read := by
  induction count generalizing read with
  | zero =>
      rw [block.drop_cells_zero]
      rfl
  | succ count ih =>
      have hany : (some block).any (·.contains (block.cellAt (block.size - (count + 1)))) :=
        Area.contains_cellAt hblock (by omega)
      rw [Area.drop_cells_succ hcount]
      unfold readCells askAll
      dsimp only
      rw [if_pos hany]
      exact congrArg _ (funext fun v => ih (by omega) _)

theorem readBlock_self (hblock : block.Proper) :
    readBlock block (some block) =
      (askAll block.cells (.emptyWithCapacity block.size)).bind fun cells =>
        .done ⟨block.height, block.width, cells⟩ := by
  unfold readBlock
  rw [readCells_self hblock (Nat.le_refl _), Nat.sub_self, List.drop_zero]

/-- The same scalars in the same order, blanks left out. -/
def AlikeCells (read read' : Array Scalar) : Prop :=
  read.toList.filter (!·.isBlank) = read'.toList.filter (!·.isBlank)

/-- Cells left out of a list are asked for by the second inquiry alone. -/
theorem padded_askAll {p : CellAddress → Bool} {cells : List CellAddress}
    (hgood : ∀ c ∈ cells, p c → good c) (hspare : ∀ c ∈ cells, ¬ p c → spare c)
    {read read' : Array Scalar} (h : AlikeCells read read') :
    Padded good spare stable AlikeCells (askAll (cells.filter p) read) (askAll cells read') := by
  induction cells generalizing read read' with
  | nil => exact .done h
  | cons c cells ih =>
      have hgood' := fun d hd => hgood d (List.mem_cons_of_mem c hd)
      have hspare' := fun d hd => hspare d (List.mem_cons_of_mem c hd)
      rw [List.filter_cons]
      split
      · rename_i hc
        refine .ask (hgood c List.mem_cons_self hc) fun v => ih hgood' hspare' ?_
        unfold AlikeCells at h ⊢
        rw [Array.toList_push, Array.toList_push, List.filter_append, List.filter_append, h]
      · rename_i hc
        refine .spare (hspare c List.mem_cons_self hc) (ih hgood' hspare' ?_)
        unfold AlikeCells at h ⊢
        simpa [Value.toScalar, Scalar.isBlank] using h

/-- A larger used part, read as a whole, asks for more cells and gives a table alike. -/
theorem padded_readBlock_self {used used' : Area} (hused : used.Proper) (hused' : used'.Proper)
    (hcells : used'.cells.filter (used.contains ·) = used.cells)
    (hgood : ∀ c ∈ used'.cells, good c)
    (hspare : ∀ c ∈ used'.cells, ¬ used.contains c → spare c) :
    Padded good spare stable Table.Alike (readBlock used (some used))
      (readBlock used' (some used')) := by
  rw [readBlock_self hused, readBlock_self hused', ← hcells]
  have hempty : AlikeCells (.emptyWithCapacity used.size) (.emptyWithCapacity used'.size) := rfl
  refine (padded_askAll (fun c hc _ => hgood c hc) hspare hempty).bind fun cells cells' h => ?_
  exact .done h

/-- So does one where nothing was used before. -/
theorem padded_readBlock_blank {used' : Area} (hused' : used'.Proper)
    (hgood : ∀ c ∈ used'.cells, good c) (hspare : ∀ c ∈ used'.cells, spare c) :
    Padded good spare stable Table.Alike (.done (.single .blank))
      (readBlock used' (some used')) := by
  rw [readBlock_self hused']
  have hask : Padded good spare stable AlikeCells
      (askAll (used'.cells.filter fun _ => false) (.emptyWithCapacity 0))
      (askAll used'.cells (.emptyWithCapacity used'.size)) :=
    padded_askAll (fun c hc _ => hgood c hc) (fun c hc _ => hspare c hc) rfl
  have hnone : used'.cells.filter (fun _ => false) = [] := by simp
  rw [hnone] at hask
  have hblank (cells cells' : Array Scalar) (h : AlikeCells cells cells') :
      Padded good spare stable Table.Alike (.done ⟨1, 1, cells.push .blank⟩)
        (.done ⟨used'.height, used'.width, cells'⟩) := by
    refine .done ?_
    unfold AlikeCells at h
    simpa [Table.Alike, Scalar.isBlank] using h
  exact hask.bind hblank

/-! ## Areas -/

theorem added_of_contains (ha : area.Proper)
    (hapart : ∀ c, area.contains c → ¬ site.source.SameCell a c) {c : CellAddress}
    (hc : area.contains c)
    (hold : ¬ (c.row ≤ (site.source.extent area.sheet).1 ∧
      c.col ≤ (site.source.extent area.sheet).2))
    (hnew : c.row ≤ (site'.source.extent area.sheet).1 ∧
      c.col ≤ (site'.source.extent area.sheet).2) :
    site.source.Added site'.source a c := by
  obtain ⟨hsheet, htop, -, hleft, -⟩ := Area.contains_iff.mp hc
  rw [← hsheet] at hold hnew
  exact ⟨hapart c hc, Nat.le_trans ha.top htop, Nat.le_trans ha.left hleft, hold, hnew⟩

variable (hextends : site.source.Extends site'.source) (ha : area.Proper)
  (hgood : ∀ c, c.sheet = area.sheet → good c)
include hextends ha hgood

theorem padded_readUsed
    (hstable : stable (.used area) → site.source.Overlooks site'.source a (.used area)) :
    Padded good (site.source.Added site'.source a) stable Table.Alike (site.readUsed area)
      (site'.readUsed area) := by
  by_cases h : stable (.used area)
  swap
  · exact .unstable h
  obtain ⟨hapart, -⟩ := hstable h
  obtain ⟨hrows, hcols⟩ := hextends area.sheet
  unfold readUsed
  dsimp only
  refine .note ?_
  cases h' : area.within? (site'.source.extent area.sheet).1 (site'.source.extent area.sheet).2 with
  | none =>
      have h : area.within? (site.source.extent area.sheet).1 (site.source.extent area.sheet).2 =
          none := by
        unfold Area.within? at h' ⊢
        split at h'
        · rw [if_pos (by omega)]
        · cases h'
      rw [h]
      exact .done rfl
  | some used' =>
      have hused' : used'.Proper := ha.within? h'
      have hcells : ∀ c ∈ used'.cells, area.contains c ∧
          c.row ≤ (site'.source.extent area.sheet).1 ∧
          c.col ≤ (site'.source.extent area.sheet).2 :=
        fun c hc => (Area.contains_within?_iff h').mp ((Area.mem_cells_iff hused').mp hc)
      have hgood' : ∀ c ∈ used'.cells, good c := fun c hc =>
        hgood c (Area.contains_iff.mp (hcells c hc).1).1
      cases h : area.within? (site.source.extent area.sheet).1
          (site.source.extent area.sheet).2 with
      | none =>
          refine padded_readBlock_blank hused' hgood' fun c hc => ?_
          obtain ⟨hin, hnew⟩ := hcells c hc
          refine added_of_contains ha hapart hin (fun hold => ?_) hnew
          have hany := (Area.any_within?_contains _ _).mpr ⟨hin, hold⟩
          rw [h] at hany
          cases hany
      | some used =>
          have hused : used.Proper := ha.within? h
          -- the cells used before come in the same order, with the added ones in between
          have hfilter : used'.cells.filter (used.contains ·) = used.cells := by
            obtain ⟨-, -, rfl⟩ := Area.within?_eq_some h
            obtain ⟨-, -, rfl⟩ := Area.within?_eq_some h'
            exact Area.cells_filter hused rfl rfl rfl (by dsimp only; omega) (by dsimp only; omega)
          refine padded_readBlock_self hused hused' hfilter hgood' fun c hc hold => ?_
          obtain ⟨hin, hnew⟩ := hcells c hc
          refine added_of_contains ha hapart hin (fun h' => hold ?_) hnew
          exact (Area.contains_within?_iff h).mpr ⟨hin, h'⟩

theorem padded_readArea
    (hstable : stable (.table area) → site.source.Overlooks site'.source a (.table area)) :
    Padded good (site.source.Added site'.source a) stable Eq (site.readArea area)
      (site'.readArea area) := by
  unfold readArea
  split
  · exact .note (.ask (hgood _ rfl) fun v => .done rfl)
  by_cases h : stable (.table area)
  swap
  · exact .unstable h
  obtain ⟨hapart, hcut⟩ := hstable h
  obtain ⟨hrows, hcols⟩ := hextends area.sheet
  unfold Source.KeepsCut at hcut
  dsimp only at hcut ⊢
  refine .note ?_
  -- the area is cut alike before and after, or both times too large to be read
  obtain heq | ⟨hlarge, hlarge'⟩ := hcut
  · rw [heq]
    split
    · exact .done rfl
    · generalize hblock : area.clip (site.source.extent area.sheet).1
        (site.source.extent area.sheet).2 = block
      have hin : ∀ c, block.contains c → area.contains c := fun c hc =>
        Area.contains_of_clip ha (hblock ▸ hc)
      refine (padded_readBlock (hblock ▸ ha.clip _ _)
        (fun c hc => hgood c (Area.contains_iff.mp (hin c hc)).1) ?_ ?_).bind fun t t' h => ?_
      · intro c _ h
        rw [Area.any_within?_contains] at h ⊢
        exact ⟨h.1, Nat.le_trans h.2.1 hrows, Nat.le_trans h.2.2 hcols⟩
      · intro c hc hold hnew
        rw [Area.any_within?_contains] at hold hnew
        exact added_of_contains ha hapart (hin c hc) (fun h => hold ⟨hc, h⟩) hnew.2
      · exact .done (h ▸ rfl)
  · rw [if_pos hlarge, if_pos hlarge']
    exact .done rfl

end Site

/-! ## Shape -/

namespace Site

variable {site site' : Site} {area block : Area} {used : Option Area} {answers answers' : Answers}
  {v v' : Value}

/-- A block that could be read was read to the end. -/
theorem exists_cells_of_evaluate {α : Type} {f : Array Scalar → Inquiry α} {a : α} {count : Nat}
    {read : Array Scalar}
    (h : ((readCells block used count read).bind f).evaluate answers = some (.ok a)) :
    ∃ cells, (f cells).evaluate answers = some (.ok a) := by
  induction count generalizing read with
  | zero => exact ⟨read, h⟩
  | succ count ih =>
      unfold readCells at h
      dsimp only at h
      split at h
      · unfold Inquiry.bind at h
        rw [evaluate_ask] at h
        split at h
        · cases h
        · cases h
        · exact ih h
      · exact ih h

/-- A larger area reads as a table of the shape that it is cut to, unless that is too large. -/
theorem shape_of_evaluate (hsingle : ¬ area.isSingleCell)
    (h : (site.readArea area).evaluate answers = some (.ok v)) :
    let block := area.clip (site.source.extent area.sheet).1 (site.source.extent area.sheet).2
    (maxTableCells < block.size ∧ v = .error .number) ∨
      ∃ cells, v = .table ⟨block.height, block.width, cells⟩ := by
  unfold readArea at h
  rw [if_neg hsingle] at h
  dsimp only at h ⊢
  rw [evaluate_note] at h
  split at h
  · rename_i hlarge
    cases h
    exact .inl ⟨hlarge, rfl⟩
  · rw [readBlock, Inquiry.bind_assoc] at h
    obtain ⟨cells, hcells⟩ := exists_cells_of_evaluate h
    cases hcells
    exact .inr ⟨cells, rfl⟩

/-- Cut to another shape, an area reads as another value, whatever its cells hold. -/
theorem ne_of_not_keepsCut (hsingle : ¬ area.isSingleCell)
    (hcut : ¬ site.source.KeepsCut site'.source (.table area))
    (h : (site.readArea area).evaluate answers = some (.ok v))
    (h' : (site'.readArea area).evaluate answers' = some (.ok v')) : v' ≠ v := by
  unfold Source.KeepsCut at hcut
  have hshape := shape_of_evaluate hsingle h
  have hshape' := shape_of_evaluate hsingle h'
  dsimp only at hcut hshape hshape'
  rintro rfl
  obtain ⟨hlarge, rfl⟩ | ⟨cells, rfl⟩ := hshape
  · obtain ⟨hlarge', -⟩ | ⟨_, hv⟩ := hshape'
    · exact hcut (.inr ⟨hlarge, hlarge'⟩)
    · cases hv
  · obtain ⟨-, hv⟩ | ⟨_, hv⟩ := hshape'
    · cases hv
    · simp only [Value.table.injEq, Table.mk.injEq] at hv
      exact hcut (.inl (Area.clip_eq_of_shape hv.1.symm hv.2.1.symm))

end Site

end Spreadsheet
