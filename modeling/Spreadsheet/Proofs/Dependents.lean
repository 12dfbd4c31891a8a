-- SUMMARY: The search for dependents comes to an end and lists them nearest first.
import Mathlib.Order.Lattice.Nat
import Spreadsheet.Proofs.Recording

/-!
# Dependents, nearest first

The dependents of a cell are found by following its readers, then their readers, and so on, in the
order in which they were found. What was found is always sorted by distance, and the cells found so
far are never more than one step farther away than the next one to be followed. A cell no farther
away than that one was found already, so all that is found by following it is one step farther.
-/

namespace Spreadsheet

open Std Relation

namespace Dependencies

variable {deps : Dependencies} {c x y : CellAddress} {n next : Nat} {found result : Found}

/-! ## Distance -/

/-- The first cell read the second, by itself or in an area that contains it. -/
def Reads (deps : Dependencies) (x y : CellAddress) : Prop :=
  .cell y ∈ deps.precedents x ∨ ∃ area, .area area ∈ deps.precedents x ∧ area.contains y

/-- The cell is reached from `c` in so many steps, each to a cell that read the one before. -/
inductive ReachedIn (deps : Dependencies) (c : CellAddress) : Nat → CellAddress → Prop where
  | reader {x : CellAddress} : deps.Reads x c → ReachedIn deps c 1 x
  | further {n : Nat} {x y : CellAddress} :
      ReachedIn deps c n y → deps.Reads x y → ReachedIn deps c (n + 1) x

/-- The least number of steps in which a cell is reached from `c`. -/
noncomputable def distance (deps : Dependencies) (c x : CellAddress) : Nat :=
  sInf {n | deps.ReachedIn c n x}

theorem mem_readers_iff_reads (h : deps.Mirrored) : x ∈ deps.readers y ↔ deps.Reads x y := by
  rw [mem_readers h]
  constructor
  · rintro ⟨p, hp, hcontains⟩
    cases p with
    | cell d =>
        obtain rfl := contains_region_cell.mp hcontains
        exact .inl hp
    | area area => exact .inr ⟨area, hp, hcontains⟩
  · rintro (hcell | ⟨area, harea, hcontains⟩)
    · exact ⟨.cell y, hcell, contains_region_cell.mpr rfl⟩
    · exact ⟨.area area, harea, hcontains⟩

theorem exists_reachedIn_iff : (∃ n, deps.ReachedIn c n x) ↔ TransGen deps.Reads x c := by
  constructor
  · rintro ⟨n, h⟩
    induction h with
    | reader hx => exact .single hx
    | further _ hx ih => exact .head hx ih
  · intro h
    induction h using TransGen.head_induction_on with
    | single hx => exact ⟨1, .reader hx⟩
    | head hx _ ih =>
        obtain ⟨n, hn⟩ := ih
        exact ⟨n + 1, .further hn hx⟩

theorem ReachedIn.distance_le (h : deps.ReachedIn c n x) : deps.distance c x ≤ n :=
  Nat.sInf_le h

theorem ReachedIn.nearest (h : deps.ReachedIn c n x) : deps.ReachedIn c (deps.distance c x) x :=
  Nat.sInf_mem (s := {n | deps.ReachedIn c n x}) ⟨n, h⟩

theorem ReachedIn.one_le (h : deps.ReachedIn c n x) : 1 ≤ n := by
  cases h with
  | reader _ => exact Nat.le_refl 1
  | further _ _ => exact Nat.le_add_left 1 _

theorem distance_reader (h : deps.Reads x c) : deps.distance c x = 1 :=
  Nat.le_antisymm (ReachedIn.reader h).distance_le (ReachedIn.reader h).nearest.one_le

/-- A way along related cells, written out. -/
theorem transGen_iff_chain {r : CellAddress → CellAddress → Prop} :
    TransGen r x y ↔ ∃ others, (x :: others ++ [y]).IsChain r := by
  constructor
  · intro h
    induction h using TransGen.head_induction_on with
    | single hxy => exact ⟨[], by simp [hxy]⟩
    | @head a b hab _ ih =>
        obtain ⟨others, hchain⟩ := ih
        exact ⟨b :: others, List.IsChain.cons_cons hab hchain⟩
  · rintro ⟨others, hchain⟩
    induction others generalizing x with
    | nil =>
        apply TransGen.single
        simpa using hchain
    | cons z others ih =>
        rw [List.cons_append, List.cons_append, List.isChain_cons_cons] at hchain
        exact .head hchain.1 (ih hchain.2)

/-! ## The search without a bound on its steps -/

/-- When the found cells before `next` were followed, the search still follows one after another,
until none is left and `result` was found. -/
inductive Ends (deps : Dependencies) : Nat → Found → Found → Prop where
  | done {next : Nat} {found : Found} : found.cells[next]? = none → Ends deps next found found
  | follow {next : Nat} {found result : Found} {cell : CellAddress} :
      found.cells[next]? = some cell →
      Ends deps (next + 1) ((deps.readers cell).foldl Found.add found) result →
      Ends deps next found result

/-- With as many steps as there are cells to be found, the search ends by itself. -/
theorem ends_search {all : List CellAddress} (hall : ∀ c, ∀ x ∈ deps.readers c, x ∈ all)
    {steps : Nat} (hvalid : found.Valid) (hin : ∀ x ∈ found.cells.toList, x ∈ all)
    (hsteps : all.length ≤ steps + next) :
    deps.Ends next found (deps.search steps next found) := by
  induction steps generalizing next found with
  | zero =>
      have hlength : found.cells.toList.length ≤ all.length :=
        List.Nodup.length_le_of_subset hvalid.nodup hin
      apply Ends.done
      rw [Array.length_toList] at hlength
      rw [Array.getElem?_eq_none_iff]
      omega
  | succ steps ih =>
      unfold search
      cases hy : found.cells[next]? with
      | none => exact .done hy
      | some y =>
          apply Ends.follow hy
          apply ih (hvalid.foldl_add _)
          · intro x hx
            rw [Found.mem_foldl_add hvalid] at hx
            rcases hx with hx | hx
            · exact hall y x hx
            · exact hin x hx
          · omega

theorem ends_dependents (h : deps.Mirrored) (c : CellAddress) :
    ∃ found, deps.Ends 0 ((deps.readers c).foldl Found.add {}) found ∧
      deps.dependents c = found.cells.toList := by
  have hall : ∀ c, ∀ x ∈ deps.readers c, x ∈ deps.reads.keys :=
    fun _ _ => mem_keys_of_mem_readers h
  refine ⟨_, ?_, rfl⟩
  apply ends_search hall
  · exact Found.Valid.empty.foldl_add _
  · intro x hx
    rw [Found.mem_foldl_add .empty] at hx
    rcases hx with hx | hx
    · exact hall c x hx
    · simp at hx
  · rw [TreeMap.length_keys]
    exact Nat.le_refl _

/-! ## The order in which cells are found -/

/-- What was found first stays in its place. -/
theorem Found.getElem?_foldl_add (xs : List CellAddress) {i : Nat} (hx : found.cells[i]? = some x) :
    (xs.foldl Found.add found).cells[i]? = some x := by
  have hprefix : found.cells.toList <+: (xs.foldl Found.add found).cells.toList :=
    Found.prefix_foldl_add xs
  obtain ⟨added, hadded⟩ := hprefix
  rw [← Array.getElem?_toList] at hx ⊢
  rw [← hadded, List.getElem?_append_left (List.getElem?_eq_some_iff.mp hx).1, hx]

theorem Found.rank_le {rank : CellAddress → Nat} {i j : Nat}
    (hsorted : found.cells.toList.Pairwise fun x y => rank x ≤ rank y) (hij : i ≤ j)
    (hx : found.cells[i]? = some x) (hy : found.cells[j]? = some y) : rank x ≤ rank y := by
  rw [← Array.getElem?_toList] at hx hy
  obtain ⟨hi, rfl⟩ := List.getElem?_eq_some_iff.mp hx
  obtain ⟨hj, rfl⟩ := List.getElem?_eq_some_iff.mp hy
  rcases Nat.lt_or_eq_of_le hij with hlt | rfl
  · exact List.pairwise_iff_getElem.mp hsorted i j hi hj hlt
  · exact Nat.le_refl _

/-- Cells that are all of the greatest rank can be added without breaking the order. -/
theorem Found.sorted_foldl_add {rank : CellAddress → Nat} {xs : List CellAddress}
    (hvalid : found.Valid) (hsorted : found.cells.toList.Pairwise fun x y => rank x ≤ rank y)
    (hle : ∀ x ∈ found.cells.toList, rank x ≤ n)
    (hnew : ∀ x ∈ xs, x ∉ found.cells.toList → rank x = n) :
    ((xs.foldl Found.add found).cells.toList.Pairwise fun x y => rank x ≤ rank y) ∧
      ∀ x ∈ (xs.foldl Found.add found).cells.toList, rank x ≤ n := by
  induction xs generalizing found with
  | nil => exact ⟨hsorted, hle⟩
  | cons x xs ih =>
      have hadd : ((found.add x).cells.toList.Pairwise fun x y => rank x ≤ rank y) ∧
          ∀ y ∈ (found.add x).cells.toList, rank y ≤ n := by
        unfold Found.add
        split
        · exact ⟨hsorted, hle⟩
        · rename_i hx
          rw [TreeSet.contains_iff_mem, hvalid.seen] at hx
          have hrank := hnew x List.mem_cons_self hx
          simp only [Array.toList_push, List.pairwise_append, List.mem_append, List.mem_singleton]
          refine ⟨⟨hsorted, List.pairwise_singleton _ _, ?_⟩, ?_⟩
          · rintro y hy _ rfl
            exact hrank ▸ hle y hy
          · rintro y (hy | rfl)
            · exact hle y hy
            · exact hrank.le
      apply ih (hvalid.add x) hadd.1 hadd.2
      intro y hy hnot
      apply hnew y (List.mem_cons_of_mem _ hy)
      intro hfound
      exact hnot ((Found.mem_add hvalid).mpr (.inr hfound))

/-- The found cells before `next` were followed. All are sorted by their distance from `c`, and none
is farther away than the readers of the next one. -/
structure Layered (deps : Dependencies) (c : CellAddress) (next : Nat) (found : Found) : Prop where
  valid : found.Valid
  first : ∀ x, deps.Reads x c → x ∈ found.cells.toList
  followed : deps.Followed next found
  reached : ∀ x ∈ found.cells.toList, ∃ n, deps.ReachedIn c n x
  sorted : found.cells.toList.Pairwise fun x y => deps.distance c x ≤ deps.distance c y
  within : ∀ y, found.cells[next]? = some y →
    ∀ x ∈ found.cells.toList, deps.distance c x ≤ deps.distance c y + 1

/-- What is no farther away than the next cell to be followed was found. -/
theorem Layered.mem_of_reachedIn (hm : deps.Mirrored) (h : deps.Layered c next found)
    (hy : found.cells[next]? = some y) (hx : deps.ReachedIn c n x)
    (hle : n ≤ deps.distance c y) : x ∈ found.cells.toList := by
  induction hx with
  | reader hx => exact h.first _ hx
  | @further n x z hz hx ih =>
      obtain ⟨i, hi⟩ := Array.mem_iff_getElem?.mp (Array.mem_toList_iff.mp (ih (by omega)))
      by_cases hfollowed : i < next
      · exact h.followed i hfollowed z hi x ((mem_readers_iff_reads hm).mpr hx)
      · -- the cells that were not followed are at least as far away as the next one
        have hfar := Found.rank_le h.sorted (Nat.not_lt.mp hfollowed) hy hi
        have hnear := hz.distance_le
        omega

theorem layered_start (hm : deps.Mirrored) (c : CellAddress) :
    deps.Layered c 0 ((deps.readers c).foldl Found.add {}) := by
  have hmem (x : CellAddress) :
      x ∈ ((deps.readers c).foldl Found.add {}).cells.toList ↔ deps.Reads x c := by
    rw [Found.mem_foldl_add .empty, mem_readers_iff_reads hm]
    simp
  have hnear : ∀ x ∈ deps.readers c, x ∉ (#[] : Array CellAddress).toList →
      deps.distance c x = 1 := by
    intro x hx _
    exact distance_reader ((mem_readers_iff_reads hm).mp hx)
  obtain ⟨hsorted, -⟩ := Found.sorted_foldl_add .empty (by simp) (by simp) hnear
  exact {
    valid := Found.Valid.empty.foldl_add _
    first := fun x hx => (hmem x).mpr hx
    followed := fun i hi => absurd hi (Nat.not_lt_zero i)
    reached := fun x hx => ⟨1, .reader ((hmem x).mp hx)⟩
    sorted := hsorted
    within := by
      intro y hy x hx
      rw [distance_reader ((hmem x).mp hx)]
      exact Nat.le_add_left 1 _ }

/-- Following a cell adds only cells that are one step farther away. -/
theorem Layered.follow (hm : deps.Mirrored) (h : deps.Layered c next found)
    (hy : found.cells[next]? = some y) :
    deps.Layered c (next + 1) ((deps.readers y).foldl Found.add found) := by
  have hmem := Array.mem_toList_iff.mpr (Array.mem_of_getElem? hy)
  obtain ⟨k, hk⟩ := h.reached y hmem
  have hnew : ∀ x ∈ deps.readers y, x ∉ found.cells.toList →
      deps.distance c x = deps.distance c y + 1 := by
    intro x hx hnot
    have hreached := hk.nearest.further ((mem_readers_iff_reads hm).mp hx)
    apply Nat.le_antisymm hreached.distance_le
    by_contra hnear
    exact hnot (h.mem_of_reachedIn hm hy hreached.nearest (by omega))
  obtain ⟨hsorted, hle⟩ := Found.sorted_foldl_add h.valid h.sorted (h.within y hy) hnew
  exact {
    valid := h.valid.foldl_add _
    first := fun x hx => (Found.prefix_foldl_add _).subset (h.first x hx)
    followed := followed_step h.valid h.followed hy
    reached := by
      intro x hx
      rw [Found.mem_foldl_add h.valid, mem_readers_iff_reads hm] at hx
      rcases hx with hx | hx
      · exact ⟨k + 1, hk.further hx⟩
      · exact h.reached x hx
    sorted := hsorted
    within := by
      intro z hz x hx
      have hyz := Found.rank_le hsorted (Nat.le_succ next) (Found.getElem?_foldl_add _ hy) hz
      have hxy := hle x hx
      omega }

/-- The cells are in layers until the search is over. -/
theorem Layered.ends (hm : deps.Mirrored) (h : deps.Layered c next found)
    (hends : deps.Ends next found result) : ∃ last, deps.Layered c last result := by
  induction hends with
  | done _ => exact ⟨_, h⟩
  | follow hy _ ih => exact ih (h.follow hm hy)

/-! ## All dependents -/

/-- However a record came about, the search for the dependents of a cell comes to an end. It lists
each cell once that is reached by following readers, the nearest first, and the cell itself if and
only if it lies on a circle of readers. -/
theorem dependents_nearest_first (changes : List Change) (c : CellAddress) :
    let deps := after changes
    (∃ found, deps.Ends 0 ((deps.readers c).foldl Found.add {}) found ∧
      deps.dependents c = found.cells.toList) ∧
    (∀ x, x ∈ deps.dependents c ↔ ∃ n, deps.ReachedIn c n x) ∧
    (deps.dependents c).Nodup ∧
    ((deps.dependents c).Pairwise fun x y => deps.distance c x ≤ deps.distance c y) ∧
    (c ∈ deps.dependents c ↔ ∃ others, (c :: others ++ [c]).IsChain deps.Reads) := by
  intro deps
  have hm : deps.Mirrored := mirrored_after changes
  have hreads : (fun x y => x ∈ deps.readers y) = deps.Reads := by
    funext x y
    exact propext (mem_readers_iff_reads hm)
  have hmem (x : CellAddress) : x ∈ deps.dependents c ↔ TransGen deps.Reads x c := by
    rw [mem_dependents hm, hreads]
  obtain ⟨found, hends, hfound⟩ := ends_dependents hm c
  obtain ⟨last, hlayered⟩ := (layered_start hm c).ends hm hends
  refine ⟨⟨found, hends, hfound⟩, ?_, ?_, ?_, ?_⟩
  · intro x
    rw [hmem, exists_reachedIn_iff]
  · rw [hfound]
    exact hlayered.valid.nodup
  · rw [hfound]
    exact hlayered.sorted
  · rw [hmem, transGen_iff_chain]

end Dependencies

end Spreadsheet
