-- SUMMARY: The two sides of the record agree, and a search finds all that depends on a cell.
import Mathlib.Data.List.Nodup
import Mathlib.Logic.Relation
import Spreadsheet.Dependencies

/-!
# The record of dependencies

Both sides of the record tell the same: a cell is among the readers of a precedent exactly
if the precedent is among what the cell read. Then the readers of a cell are the cells that
read it or an area around it, and its dependents are reached from it by following readers.
-/

namespace Spreadsheet

open Std

/-! ## Sets under keys -/

namespace Dependencies

section Sets

variable {α β : Type} [Ord α] [TransOrd α] [LawfulEqOrd α] [Ord β] [TransOrd β] [LawfulEqOrd β]
  {sets : TreeMap α (TreeSet β)} {key key' : α} {member member' : β}

@[simp] theorem mem_link :
    member' ∈ (link sets key member).getD key' ∅ ↔
      (key = key' ∧ member = member') ∨ member' ∈ sets.getD key' ∅ := by
  simp only [link, TreeMap.getD_eq_getD_getElem?, TreeMap.getElem?_alter,
    LawfulEqCmp.compare_eq_iff_eq]
  by_cases hk : key = key'
  · subst hk
    cases sets[key]? <;> simp [TreeSet.mem_insert]
  · simp [hk]

@[simp] theorem mem_unlink :
    member' ∈ (unlink sets key member).getD key' ∅ ↔
      member' ∈ sets.getD key' ∅ ∧ ¬ (key = key' ∧ member = member') := by
  simp only [unlink, TreeMap.getD_eq_getD_getElem?, TreeMap.getElem?_alter,
    LawfulEqCmp.compare_eq_iff_eq]
  by_cases hk : key = key'
  · subst hk
    cases hs : sets[key]? with
    | none => simp
    | some set =>
        have hmem : member' ∈ set.erase member ↔ member' ∈ set ∧ ¬ member = member' := by
          simp [TreeSet.mem_erase, and_comm]
        simp only [ReflOrd.compare_self, if_pos, Option.bind_some, Option.getD_some, true_and]
        rw [← hmem]
        by_cases he : (set.erase member).isEmpty = true
        · rw [if_pos he]
          simpa using TreeSet.not_mem_of_isEmpty he
        · rw [if_neg he]
          rfl
  · simp [hk]

end Sets

variable {deps : Dependencies} {p q : Precedent} {x y c : CellAddress}

/-! ## Both sides -/

/-- The cell is listed under the precedent. -/
def ReadBy (deps : Dependencies) (p : Precedent) (x : CellAddress) : Prop :=
  match p with
  | .cell c => x ∈ deps.byCell.getD c ∅
  | .area a => x ∈ deps.byArea.getD a ∅

/-- The readers of each precedent are the cells that read it. -/
def Mirrored (deps : Dependencies) : Prop :=
  ∀ p x, deps.ReadBy p x ↔ p ∈ deps.precedents x

theorem mem_precedents : p ∈ deps.precedents x ↔ p ∈ deps.reads.getD x ∅ := by
  simp [precedents]

theorem not_mem_precedents_empty : p ∉ ({} : Dependencies).precedents x := by
  simp [mem_precedents, TreeMap.getD_eq_getD_getElem?]

theorem mirrored_empty : ({} : Dependencies).Mirrored := by
  intro p x
  cases p <;> simp [ReadBy, not_mem_precedents_empty, TreeMap.getD_eq_getD_getElem?]

/-! ## Recording -/

theorem mem_precedents_record :
    q ∈ (deps.record p x).precedents y ↔ (x = y ∧ p = q) ∨ q ∈ deps.precedents y := by
  cases p <;> simp [record, mem_precedents]

theorem readBy_record :
    (deps.record p x).ReadBy q y ↔ (x = y ∧ p = q) ∨ deps.ReadBy q y := by
  cases p <;> cases q <;> simp [record, ReadBy, and_comm]

theorem Mirrored.record (h : deps.Mirrored) (p : Precedent) (x : CellAddress) :
    (deps.record p x).Mirrored := by
  intro q y
  rw [readBy_record, mem_precedents_record, h q y]

/-! ## Forgetting -/

theorem readBy_detach :
    (detach x deps p).ReadBy q y ↔ deps.ReadBy q y ∧ ¬ (p = q ∧ x = y) := by
  cases p <;> cases q <;> simp [detach, ReadBy]

theorem reads_detach : (detach x deps p).reads = deps.reads := by
  cases p <;> rfl

theorem readBy_foldl_detach (ps : List Precedent) :
    (ps.foldl (detach x) deps).ReadBy q y ↔ deps.ReadBy q y ∧ ¬ (q ∈ ps ∧ x = y) := by
  induction ps generalizing deps with
  | nil => simp
  | cons p ps ih =>
      rw [List.foldl_cons, ih, readBy_detach]
      grind

theorem reads_foldl_detach (ps : List Precedent) :
    (ps.foldl (detach x) deps).reads = deps.reads := by
  induction ps generalizing deps with
  | nil => rfl
  | cons p ps ih => rw [List.foldl_cons, ih, reads_detach]

theorem mem_precedents_forget :
    q ∈ (deps.forget x).precedents y ↔ x ≠ y ∧ q ∈ deps.precedents y := by
  unfold forget
  cases h : deps.reads[x]? with
  | none =>
      have hx : q ∉ deps.precedents x := by
        simp [mem_precedents, TreeMap.getD_eq_getD_getElem?, h]
      constructor
      · intro hq
        exact ⟨fun hxy => hx (hxy ▸ hq), hq⟩
      · exact And.right
  | some ps =>
      rw [mem_precedents, mem_precedents, reads_foldl_detach]
      simp only [TreeMap.getD_eq_getD_getElem?, TreeMap.getElem?_erase,
        LawfulEqCmp.compare_eq_iff_eq]
      by_cases hxy : x = y <;> simp [hxy]

theorem Mirrored.forget (h : deps.Mirrored) (x : CellAddress) : (deps.forget x).Mirrored := by
  intro q y
  rw [mem_precedents_forget]
  cases hr : deps.reads[x]? with
  | none =>
      have hx : q ∉ deps.precedents x := by
        simp [mem_precedents, TreeMap.getD_eq_getD_getElem?, hr]
      have hsame : deps.forget x = deps := by simp [Dependencies.forget, hr]
      rw [hsame, h q y]
      constructor
      · intro hq
        exact ⟨fun hxy => hx (hxy ▸ hq), hq⟩
      · exact And.right
  | some ps =>
      have hps : ∀ q, q ∈ ps.toList ↔ q ∈ deps.precedents x := by
        simp [mem_precedents, TreeMap.getD_eq_getD_getElem?, hr]
      simp only [Dependencies.forget, hr]
      rw [readBy_foldl_detach, hps]
      have hq := h q y
      change deps.ReadBy q y ∧ _ ↔ _
      rw [hq]
      constructor
      · rintro ⟨hq, hne⟩
        exact ⟨fun hxy => hne ⟨hxy ▸ hq, hxy⟩, hq⟩
      · rintro ⟨hne, hq⟩
        exact ⟨hq, fun hxy => hne hxy.2⟩

/-! ## Readers -/

theorem contains_region_cell {c d : CellAddress} :
    (Precedent.cell c).region.contains d ↔ c = d := by
  obtain ⟨_, _, _⟩ := c
  obtain ⟨_, _, _⟩ := d
  simp only [Precedent.region, Area.contains, Area.ofCell, Bool.and_eq_true, beq_iff_eq,
    CellAddress.mk.injEq]
  grind

/-- The readers of a cell are the cells that read it, by itself or in an area. -/
theorem mem_readers (h : deps.Mirrored) :
    x ∈ deps.readers c ↔ ∃ p ∈ deps.precedents x, p.region.contains c := by
  simp only [readers, List.mem_append, TreeSet.mem_toList, List.mem_flatMap]
  constructor
  · rintro (hx | ⟨⟨area, cells⟩, hmem, hx⟩)
    · exact ⟨.cell c, (h (.cell c) x).mp hx, contains_region_cell.mpr rfl⟩
    · have harea : deps.byArea[area]? = some cells :=
        TreeMap.mem_toList_iff_getElem?_eq_some.mp hmem
      by_cases hc : area.contains c
      · rw [if_pos hc, TreeSet.mem_toList] at hx
        refine ⟨.area area, (h (.area area) x).mp ?_, hc⟩
        simpa [ReadBy, TreeMap.getD_eq_getD_getElem?, harea] using hx
      · rw [if_neg hc] at hx
        cases hx
  · rintro ⟨p, hp, hc⟩
    have hread := (h p x).mpr hp
    cases p with
    | cell d =>
        cases contains_region_cell.mp hc
        exact .inl hread
    | area area =>
        have hx : x ∈ deps.byArea.getD area ∅ := hread
        rw [TreeMap.getD_eq_getD_getElem?] at hx
        cases harea : deps.byArea[area]? with
        | none => simp [harea] at hx
        | some cells =>
            refine .inr ⟨(area, cells), TreeMap.mem_toList_iff_getElem?_eq_some.mpr harea, ?_⟩
            have hc : area.contains c := hc
            simpa [hc, harea] using hx

/-! ## The search -/

namespace Found

/-- No cell was found twice, and what was seen is what was found. -/
structure Valid (found : Found) : Prop where
  nodup : found.cells.toList.Nodup
  seen : ∀ x, x ∈ found.seen ↔ x ∈ found.cells.toList

variable {found : Found}

theorem Valid.empty : ({} : Found).Valid where
  nodup := List.nodup_nil
  seen x := by simp

theorem Valid.add (h : found.Valid) (x : CellAddress) : (found.add x).Valid := by
  unfold Found.add
  split
  · exact h
  · rename_i hx
    rw [TreeSet.contains_iff_mem, h.seen] at hx
    constructor
    · rw [Array.toList_push, ← List.concat_eq_append]
      exact List.Nodup.concat hx h.nodup
    · intro y
      rw [TreeSet.mem_insert, h.seen, LawfulEqCmp.compare_eq_iff_eq, Array.toList_push,
        List.mem_append, List.mem_singleton, or_comm, eq_comm]

theorem prefix_add (x : CellAddress) :
    found.cells.toList <+: (found.add x).cells.toList := by
  unfold Found.add
  split
  · exact List.prefix_rfl
  · simp

theorem mem_add (h : found.Valid) {x y : CellAddress} :
    y ∈ (found.add x).cells.toList ↔ y = x ∨ y ∈ found.cells.toList := by
  unfold Found.add
  split
  · rename_i hx
    rw [TreeSet.contains_iff_mem, h.seen] at hx
    constructor
    · exact .inr
    · rintro (rfl | hy)
      · exact hx
      · exact hy
  · simp [or_comm]

theorem Valid.foldl_add (h : found.Valid) (xs : List CellAddress) :
    (xs.foldl Found.add found).Valid := by
  induction xs generalizing found with
  | nil => exact h
  | cons x xs ih => exact ih (h.add x)

theorem prefix_foldl_add (xs : List CellAddress) :
    found.cells.toList <+: (xs.foldl Found.add found).cells.toList := by
  induction xs generalizing found with
  | nil => exact List.prefix_rfl
  | cons x xs ih => exact (prefix_add x).trans ih

theorem mem_foldl_add (h : found.Valid) (xs : List CellAddress) {y : CellAddress} :
    y ∈ (xs.foldl Found.add found).cells.toList ↔ y ∈ xs ∨ y ∈ found.cells.toList := by
  induction xs generalizing found with
  | nil => simp
  | cons x xs ih =>
      rw [List.foldl_cons, ih (h.add x), mem_add h, List.mem_cons, or_left_comm, or_assoc]

end Found

/-- The readers of the first `next` found cells were found. -/
def Followed (deps : Dependencies) (next : Nat) (found : Found) : Prop :=
  ∀ i < next, ∀ y, found.cells[i]? = some y → ∀ x ∈ deps.readers y, x ∈ found.cells.toList

theorem followed_step {next : Nat} {found : Found} (hvalid : found.Valid)
    (h : deps.Followed next found) (hy : found.cells[next]? = some y) :
    deps.Followed (next + 1) ((deps.readers y).foldl Found.add found) := by
  intro i hi z hz x hx
  have hprefix : found.cells.toList <+: ((deps.readers y).foldl Found.add found).cells.toList :=
    Found.prefix_foldl_add _
  have hnext : next < found.cells.toList.length := by
    have := (Array.getElem?_eq_some_iff.mp hy).1
    simpa using this
  have hold : found.cells[i]? = some z := by
    obtain ⟨added, hadded⟩ := hprefix
    rw [← Array.getElem?_toList] at hz ⊢
    rw [← hz, ← hadded, List.getElem?_append_left (by omega)]
  rw [Found.mem_foldl_add hvalid]
  obtain hlt | rfl := Nat.lt_succ_iff_lt_or_eq.mp hi
  · exact .inr (h i hlt z hold x hx)
  · cases Option.some.inj (hy.symm.trans hold)
    exact .inl hx

/-- Enough steps find everything that can be reached by following readers. -/
theorem search_complete {all : List CellAddress} (hall : ∀ c, ∀ x ∈ deps.readers c, x ∈ all)
    {steps next : Nat} {found : Found} (hvalid : found.Valid)
    (hin : ∀ x ∈ found.cells.toList, x ∈ all) (hfollowed : deps.Followed next found)
    (hsteps : all.length ≤ steps + next) :
    (∀ x ∈ found.cells.toList, x ∈ (deps.search steps next found).cells.toList) ∧
      ∀ y ∈ (deps.search steps next found).cells.toList, ∀ x ∈ deps.readers y,
        x ∈ (deps.search steps next found).cells.toList := by
  have hclosed {next : Nat} {found : Found} (hfollowed : deps.Followed next found)
      (hle : found.cells.size ≤ next) : ∀ y ∈ found.cells.toList, ∀ x ∈ deps.readers y,
        x ∈ found.cells.toList := by
    intro y hy
    obtain ⟨i, hi, rfl⟩ := List.mem_iff_getElem.mp hy
    rw [Array.length_toList] at hi
    exact hfollowed i (by omega) _ (by simp [hi])
  induction steps generalizing next found with
  | zero =>
      have hlength : found.cells.toList.length ≤ all.length :=
        List.Nodup.length_le_of_subset hvalid.nodup fun x hx => hin x hx
      have hle : found.cells.size ≤ next := by
        rw [Array.length_toList] at hlength
        omega
      exact ⟨fun x hx => hx, hclosed hfollowed hle⟩
  | succ steps ih =>
      unfold search
      cases hy : found.cells[next]? with
      | none => exact ⟨fun x hx => hx, hclosed hfollowed (Array.getElem?_eq_none_iff.mp hy)⟩
      | some y =>
          have hin' : ∀ x ∈ ((deps.readers y).foldl Found.add found).cells.toList, x ∈ all := by
            intro x hx
            rw [Found.mem_foldl_add hvalid] at hx
            exact hx.elim (hall y x) (hin x)
          obtain ⟨hgrow, hresult⟩ := ih (hvalid.foldl_add _) hin'
            (followed_step hvalid hfollowed hy) (by omega)
          refine ⟨fun x hx => hgrow x ?_, hresult⟩
          exact (Found.mem_foldl_add hvalid _).mpr (.inr hx)

/-- Whatever readers keep holds of all that a search finds. -/
theorem search_sound {P : CellAddress → Prop} (hP : ∀ y, P y → ∀ x ∈ deps.readers y, P x)
    {steps next : Nat} {found : Found} (hvalid : found.Valid)
    (hfound : ∀ x ∈ found.cells.toList, P x) :
    ∀ x ∈ (deps.search steps next found).cells.toList, P x := by
  induction steps generalizing next found with
  | zero => exact hfound
  | succ steps ih =>
      unfold search
      cases hy : found.cells[next]? with
      | none => exact hfound
      | some y =>
          refine ih (hvalid.foldl_add _) fun x hx => ?_
          rw [Found.mem_foldl_add hvalid] at hx
          have hmem : y ∈ found.cells.toList :=
            Array.mem_toList_iff.mpr (Array.mem_of_getElem? hy)
          exact hx.elim (hP y (hfound y hmem) x) (hfound x)

/-- The cells that read something are all that a search can find. -/
theorem mem_keys_of_mem_readers (h : deps.Mirrored) (hx : x ∈ deps.readers c) :
    x ∈ deps.reads.keys := by
  obtain ⟨p, hp, -⟩ := (mem_readers h).mp hx
  rw [mem_precedents, TreeMap.getD_eq_getD_getElem?] at hp
  rw [TreeMap.mem_keys, TreeMap.mem_iff_isSome_getElem?]
  cases hr : deps.reads[x]? with
  | none => simp [hr] at hp
  | some ps => rfl

/-- The dependents of a cell are the cells that read it, directly or through others. -/
theorem mem_dependents (h : deps.Mirrored) :
    x ∈ deps.dependents c ↔ Relation.TransGen (fun x y => x ∈ deps.readers y) x c := by
  have hvalid := Found.Valid.empty.foldl_add (deps.readers c)
  have hfound (x : CellAddress) :
      x ∈ ((deps.readers c).foldl Found.add {}).cells.toList ↔ x ∈ deps.readers c := by
    rw [Found.mem_foldl_add .empty]
    simp
  have hall : ∀ c, ∀ x ∈ deps.readers c, x ∈ deps.reads.keys :=
    fun _ _ => mem_keys_of_mem_readers h
  constructor
  · intro hx
    refine search_sound (P := fun x => Relation.TransGen _ x c) ?_ hvalid ?_ x hx
    · exact fun y hy x hx => .head hx hy
    · exact fun x hx => .single ((hfound x).mp hx)
  · intro hx
    have hsteps : deps.reads.keys.length ≤ deps.size + 0 := by
      rw [TreeMap.length_keys]
      exact Nat.le_refl _
    obtain ⟨hgrow, hclosed⟩ := search_complete hall hvalid
      (fun x hx => hall c x ((hfound x).mp hx)) (fun i hi => absurd hi (Nat.not_lt_zero i)) hsteps
    induction hx using Relation.TransGen.head_induction_on with
    | single hx => exact hgrow _ ((hfound _).mpr hx)
    | head hx _ ih => exact hclosed _ ih _ hx

end Dependencies

end Spreadsheet
