-- SUMMARY: What a record of dependencies holds after any changes, on each of its sides.
import Mathlib.Data.List.Induction
import Spreadsheet.Proofs.Dependencies

/-!
# Recording and forgetting

A record of dependencies starts empty. Readings are added to it, what one cell read is forgotten,
and now and then all of it is. Whatever the order of these changes, a cell is listed as a reader of
exactly what it read since it was last forgotten, the readers of a cell or an area are listed where
they read it, and no list is kept that has nothing on it.
-/

namespace Spreadsheet

open Std

namespace Dependencies

/-! ## Changes -/

/-- What happens to a record of dependencies. -/
inductive Change where
  | record (precedent : Precedent) (reader : CellAddress)
  | forget (reader : CellAddress)
  | clear
  deriving DecidableEq, Repr

/-- What a change makes of a record. -/
def Change.apply (deps : Dependencies) : Change → Dependencies
  | .record precedent reader => deps.record precedent reader
  | .forget reader => deps.forget reader
  | .clear => {}

/-- What some changes, made in order, leave of an empty record. -/
def after (changes : List Change) : Dependencies := changes.foldl Change.apply {}

/-- The reading was recorded, and since then neither its reader nor everything was forgotten. -/
def Recorded (changes : List Change) (p : Precedent) (x : CellAddress) : Prop :=
  ∃ earlier later, changes = earlier ++ .record p x :: later ∧
    .forget x ∉ later ∧ .clear ∉ later

variable {deps : Dependencies} {changes : List Change} {change : Change} {p q : Precedent}
  {x y c : CellAddress}

theorem after_concat (changes : List Change) (change : Change) :
    after (changes ++ [change]) = change.apply (after changes) := by
  simp [after]

/-- All changes keep what each of them keeps. -/
theorem after_induction {P : Dependencies → Prop} (hempty : P {})
    (happly : ∀ (deps : Dependencies) (change : Change), P deps → P (change.apply deps))
    (changes : List Change) :
    P (after changes) := by
  induction changes using List.reverseRecOn with
  | nil => exact hempty
  | append_singleton changes change ih =>
      rw [after_concat]
      exact happly _ _ ih

theorem mirrored_after (changes : List Change) : (after changes).Mirrored := by
  refine after_induction mirrored_empty ?_ changes
  intro deps change h
  cases change with
  | record p x => exact h.record p x
  | forget x => exact h.forget x
  | clear => exact mirrored_empty

/-! ## What stays recorded -/

theorem recorded_concat :
    Recorded (changes ++ [change]) p x ↔
      change = .record p x ∨ Recorded changes p x ∧ change ≠ .forget x ∧ change ≠ .clear := by
  constructor
  · rintro ⟨earlier, later, heq, hforget, hclear⟩
    -- the reading is the last change or one before it
    rcases List.eq_nil_or_concat later with rfl | ⟨later, last, rfl⟩
    · left
      exact List.singleton_inj.mp (List.append_inj_right' heq rfl)
    · right
      rw [List.concat_eq_append, ← List.cons_append, ← List.append_assoc] at heq
      obtain ⟨rfl, hlast⟩ := List.append_inj' heq rfl
      obtain rfl := List.singleton_inj.mp hlast
      simp only [List.concat_eq_append, List.mem_append, List.mem_singleton, not_or]
        at hforget hclear
      exact ⟨⟨earlier, later, rfl, hforget.1, hclear.1⟩, Ne.symm hforget.2, Ne.symm hclear.2⟩
  · rintro (rfl | ⟨⟨earlier, later, rfl, hforget, hclear⟩, hforget', hclear'⟩)
    · exact ⟨changes, [], rfl, List.not_mem_nil, List.not_mem_nil⟩
    · refine ⟨earlier, later ++ [change], by simp, ?_, ?_⟩
      · simp [hforget, Ne.symm hforget']
      · simp [hclear, Ne.symm hclear']

/-- A cell is on record for exactly what it read since it was last forgotten. -/
theorem mem_precedents_after : p ∈ (after changes).precedents x ↔ Recorded changes p x := by
  induction changes using List.reverseRecOn with
  | nil =>
      constructor
      · intro hp
        exact absurd hp not_mem_precedents_empty
      · rintro ⟨earlier, later, heq, -⟩
        cases earlier <;> cases heq
  | append_singleton changes change ih =>
      rw [after_concat, recorded_concat, ← ih]
      cases change with
      | record q y =>
          simp only [Change.apply, mem_precedents_record, Change.record.injEq, ne_eq, reduceCtorEq,
            not_false_eq_true, and_true]
          rw [and_comm (a := y = x)]
      | forget y =>
          simp only [Change.apply, mem_precedents_forget, Change.forget.injEq, ne_eq, reduceCtorEq,
            not_false_eq_true, and_true, false_or]
          exact and_comm
      | clear =>
          simp only [Change.apply, ne_eq, reduceCtorEq, not_true_eq_false, and_false, or_false,
            iff_false]
          exact not_mem_precedents_empty

/-! ## Lists and what is on them -/

section Sets

variable {α β : Type} [Ord α] [TransOrd α] [Ord β] {sets : TreeMap α (TreeSet β)} {key : α}
  {member : β}

/-- The key has a set, and the member is in it. -/
def Listed (sets : TreeMap α (TreeSet β)) (key : α) (member : β) : Prop :=
  ∃ set, sets[key]? = some set ∧ member ∈ set

/-- No key has an empty set. -/
def Filled (sets : TreeMap α (TreeSet β)) : Prop :=
  ∀ (key : α) (set : TreeSet β), sets[key]? = some set → ∃ member, member ∈ set

theorem listed_iff : Listed sets key member ↔ member ∈ sets.getD key ∅ := by
  unfold Listed
  rw [TreeMap.getD_eq_getD_getElem?]
  cases sets[key]? <;> simp

theorem filled_empty : Filled (∅ : TreeMap α (TreeSet β)) := by
  intro key set hset
  simp at hset

theorem Filled.erase (h : Filled sets) (key : α) : Filled (sets.erase key) := by
  intro key' set hset
  rw [TreeMap.getElem?_erase] at hset
  split at hset
  · cases hset
  · exact h key' set hset

variable [TransOrd β]

theorem Filled.link (h : Filled sets) (key : α) (member : β) :
    Filled (link sets key member) := by
  intro key' set hset
  unfold Dependencies.link at hset
  rw [TreeMap.getElem?_alter] at hset
  split at hset
  · cases hset
    exact ⟨member, TreeSet.mem_insert_self⟩
  · exact h key' set hset

theorem Filled.unlink (h : Filled sets) (key : α) (member : β) :
    Filled (unlink sets key member) := by
  intro key' set hset
  unfold Dependencies.unlink at hset
  rw [TreeMap.getElem?_alter] at hset
  split at hset
  · obtain ⟨set', -, hrest⟩ := Option.bind_eq_some_iff.mp hset
    by_cases hempty : (set'.erase member).isEmpty = true
    · simp [hempty] at hrest
    · simp only [hempty, Bool.false_eq_true, if_false, Option.some.injEq] at hrest
      subst hrest
      rw [Bool.not_eq_true, TreeSet.isEmpty_eq_false_iff_exists_mem] at hempty
      exact hempty
  · exact h key' set hset

end Sets

/-- No list of the record is kept that has nothing on it. -/
structure Trim (deps : Dependencies) : Prop where
  cells : Filled deps.byCell
  areas : Filled deps.byArea
  readers : Filled deps.reads

theorem trim_empty : ({} : Dependencies).Trim := ⟨filled_empty, filled_empty, filled_empty⟩

theorem Trim.record (h : deps.Trim) (p : Precedent) (x : CellAddress) : (deps.record p x).Trim := by
  cases p with
  | cell c => exact ⟨h.cells.link c x, h.areas, h.readers.link x _⟩
  | area a => exact ⟨h.cells, h.areas.link a x, h.readers.link x _⟩

theorem Trim.detach (h : deps.Trim) (p : Precedent) : (detach x deps p).Trim := by
  cases p with
  | cell c => exact ⟨h.cells.unlink c x, h.areas, h.readers⟩
  | area a => exact ⟨h.cells, h.areas.unlink a x, h.readers⟩

theorem Trim.foldl_detach (h : deps.Trim) (ps : List Precedent) :
    (ps.foldl (Dependencies.detach x) deps).Trim := by
  induction ps generalizing deps with
  | nil => exact h
  | cons p ps ih => exact ih (h.detach p)

theorem Trim.forget (h : deps.Trim) (x : CellAddress) : (deps.forget x).Trim := by
  unfold Dependencies.forget
  split
  · exact h
  · apply Trim.foldl_detach
    exact ⟨h.cells, h.areas, h.readers.erase x⟩

theorem trim_after (changes : List Change) : (after changes).Trim := by
  refine after_induction trim_empty ?_ changes
  intro deps change h
  cases change with
  | record p x => exact h.record p x
  | forget x => exact h.forget x
  | clear => exact trim_empty

/-! ## The sides of the record -/

/-- A cell is listed as a reader where the precedent is listed as read by it. -/
theorem Mirrored.listed_byCell (h : deps.Mirrored) :
    Listed deps.byCell c x ↔ .cell c ∈ deps.precedents x :=
  listed_iff.trans (h (.cell c) x)

theorem Mirrored.listed_byArea (h : deps.Mirrored) {area : Area} :
    Listed deps.byArea area x ↔ .area area ∈ deps.precedents x :=
  listed_iff.trans (h (.area area) x)

/-- However a record came about, its sides tell the same and nothing but what was read since it was
last forgotten, none of them has an empty list, and forgetting a cell takes exactly its own readings
off both sides. -/
theorem sides_agree (changes : List Change) :
    let deps := after changes
    ((∀ c x, Listed deps.byCell c x ↔ .cell c ∈ deps.precedents x) ∧
      (∀ area x, Listed deps.byArea area x ↔ .area area ∈ deps.precedents x) ∧
      (∀ p x, p ∈ deps.precedents x ↔ Recorded changes p x)) ∧
    (Filled deps.byCell ∧ Filled deps.byArea ∧ Filled deps.reads) ∧
    ∀ y, (∀ c x, Listed (deps.forget y).byCell c x ↔ y ≠ x ∧ Listed deps.byCell c x) ∧
      (∀ area x, Listed (deps.forget y).byArea area x ↔ y ≠ x ∧ Listed deps.byArea area x) ∧
      ∀ p x, p ∈ (deps.forget y).precedents x ↔ y ≠ x ∧ p ∈ deps.precedents x := by
  intro deps
  have hmirrored : deps.Mirrored := mirrored_after changes
  have htrim : deps.Trim := trim_after changes
  refine ⟨⟨?_, ?_, ?_⟩, ⟨htrim.cells, htrim.areas, htrim.readers⟩, ?_⟩
  · intro c x
    exact hmirrored.listed_byCell
  · intro area x
    exact hmirrored.listed_byArea
  · intro p x
    exact mem_precedents_after
  · intro y
    have hforgotten := hmirrored.forget y
    refine ⟨?_, ?_, ?_⟩
    · intro c x
      rw [hforgotten.listed_byCell, hmirrored.listed_byCell, mem_precedents_forget]
    · intro area x
      rw [hforgotten.listed_byArea, hmirrored.listed_byArea, mem_precedents_forget]
    · intro p x
      exact mem_precedents_forget

end Dependencies

end Spreadsheet
