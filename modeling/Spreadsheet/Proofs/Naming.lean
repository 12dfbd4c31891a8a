-- SUMMARY: The names that built workbooks give to sheets and areas, and where those areas lie.
import Spreadsheet.Proofs.LetterCase
import Spreadsheet.Proofs.Placement
import Spreadsheet.Proofs.Source

/-!
# Names in built workbooks

In a workbook that was built step by step, every sheet has a name that a sheet can have, every
defined name is a word that can be one, no two defined names are found by the same key, and every
defined name stands for a placed area of a sheet of the workbook, spelled as that sheet is.
-/

namespace Spreadsheet

open Text

/-! ## Sheet names in any case -/

/-- A name that differs from a quotable one only in case is quotable too. -/
theorem SheetName.Quotable.of_equal {name name' : String} (h : Quotable name)
    (hequal : equalIgnoringCase name name') : Quotable name' := by
  have hlowered : lowered name.toList = lowered name'.toList := equalIgnoringCase_iff.mp hequal
  refine ⟨?_, fun hcolon => h.noColon ?_⟩
  · rintro rfl
    exact h.ne_empty (String.toList_inj.mp (List.map_eq_nil_iff.mp hlowered))
  · rw [← mem_lowered (by decide), hlowered]
    exact (mem_lowered (by decide)).mpr hcolon

/-! ## Defined names -/

namespace DefinedName

/-- The key of a name does not depend on the case of its ASCII letters. -/
theorem key_eq_of_equal {name name' : String} (h : equalIgnoringCase name name') :
    key name = key name' := by
  have hchar (c : Char) : upperChar c.toLower = upperChar c := eq_of_toLower (by decide) c
  have hflat (s : String) : s.toList.flatMap upperChar = (lowered s.toList).flatMap upperChar := by
    rw [lowered, List.flatMap_map]
    exact List.flatMap_congr fun c _ => (hchar c).symm
  unfold key upper
  rw [hflat name, hflat name', lowered, lowered, equalIgnoringCase_iff.mp h]

theorem check_eq_ok {name : String} : check name = .ok () ↔ fault? name = none := by
  unfold check
  cases fault? name <;> simp

end DefinedName

namespace DefinedNames

variable {names names' : DefinedNames} {entry : DefinedName}

theorem define_eq_ok : names.define entry = .ok names' ↔
    DefinedName.fault? entry.name = none ∧ names.get? entry.name = none ∧
      names' = { entries := entry :: names.entries } := by
  unfold define
  simp only [bind_eq_ok, unless_eq_ok, pure_eq_ok, Option.not_isSome_iff_eq_none]
  constructor
  · rintro ⟨_, hcheck, hget, rfl⟩
    exact ⟨DefinedName.check_eq_ok.mp hcheck, hget, rfl⟩
  · rintro ⟨hfault, hget, rfl⟩
    exact ⟨(), DefinedName.check_eq_ok.mpr hfault, hget, rfl⟩

/-- No two names have the same key. -/
def Distinct (names : DefinedNames) : Prop :=
  names.entries.Pairwise fun a b => DefinedName.key a.name ≠ DefinedName.key b.name

theorem Distinct.cons (h : names.Distinct) (hget : names.get? entry.name = none) :
    Distinct { entries := entry :: names.entries } := by
  refine List.pairwise_cons.mpr ⟨fun entry' hmem heq => ?_, h⟩
  have hne := List.find?_eq_none.mp hget entry' hmem
  exact hne (beq_iff_eq.mpr heq.symm)

/-- Each name is found by whatever has its key. -/
theorem Distinct.get?_eq_some (h : names.Distinct) (hmem : entry ∈ names.entries) {name : String}
    (hkey : DefinedName.key entry.name = DefinedName.key name) : names.get? name = some entry := by
  obtain ⟨entries⟩ := names
  unfold get?
  induction entries with
  | nil => cases hmem
  | cons head entries ih =>
      obtain ⟨hhead, hrest⟩ := List.pairwise_cons.mp h
      rw [List.find?_cons]
      obtain rfl | hmem := List.mem_cons.mp hmem
      · rw [beq_iff_eq.mpr hkey]
      · have hne : (DefinedName.key head.name == DefinedName.key name) = false :=
          beq_eq_false_iff_ne.mpr (hkey ▸ hhead entry hmem)
        rw [hne]
        exact ih hrest hmem

end DefinedNames

/-! ## Built workbooks -/

namespace Workbook

variable {book book' : Workbook} {cell : CellAddress} {content : CellContent}
  {name refersTo : String}

theorem addSheet_eq_ok : book.addSheet name = .ok book' ↔
    SheetName.fault? name = none ∧ book.hasSheet name = false ∧
      book' = { book with sheets := book.sheets ++ [{ name }] } := by
  unfold addSheet
  cases SheetName.fault? name with
  | some cause => simp [bind_eq_ok, throw_eq_ok]
  | none =>
      simp only [unless_eq_ok, pure_eq_ok, Bool.not_eq_true, true_and]
      exact and_congr_right' eq_comm

theorem defineName_eq_ok : book.defineName name refersTo = .ok book' ↔
    ∃ first area sheet, book.firstSheet = .ok first ∧ Area.ofText refersTo first = .ok area ∧
      book.sheetName? area.sheet = some sheet ∧ DefinedName.fault? name = none ∧
      book.names.get? name = none ∧ book' = { book with
        names := { entries := { name, target := { area with sheet } } :: book.names.entries } } := by
  have hfind {asked sheet : String} :
      book.findSheet asked = .ok sheet ↔ book.sheetName? asked = some sheet := by
    unfold findSheet
    cases book.sheetName? asked <;> simp
  unfold defineName
  simp only [bind_eq_ok, pure_eq_ok, hfind, DefinedNames.define_eq_ok]
  constructor
  · rintro ⟨first, hfirst, area, harea, sheet, hsheet, names, ⟨hfault, hget, rfl⟩, rfl⟩
    exact ⟨first, area, sheet, hfirst, harea, hsheet, hfault, hget, rfl⟩
  · rintro ⟨first, area, sheet, hfirst, harea, hsheet, hfault, hget, rfl⟩
    exact ⟨first, hfirst, area, harea, sheet, hsheet, _, ⟨hfault, hget, rfl⟩, rfl⟩

/-- The sheet of the name is spelled so. -/
def Stores (book : Workbook) (name : String) : Prop := book.sheetName? name = some name

theorem stores_of_sheetName? {asked : String} (h : book.sheetName? asked = some name) :
    book.Stores name := by
  obtain ⟨sheet, hsheet, rfl⟩ := Option.map_eq_some_iff.mp h
  exact Option.map_eq_some_iff.mpr ⟨sheet, sheet?_name hsheet, rfl⟩

theorem Stores.addSheet {added : String} (hstores : book.Stores name)
    (h : book.addSheet added = .ok book') : book'.Stores name := by
  obtain ⟨-, -, rfl⟩ := addSheet_eq_ok.mp h
  obtain ⟨sheet, hsheet, hname⟩ := Option.map_eq_some_iff.mp hstores
  refine Option.map_eq_some_iff.mpr ⟨sheet, ?_, hname⟩
  unfold sheet? at hsheet ⊢
  rw [List.find?_append, hsheet]
  rfl

/-- Names of sheets and areas are names that these can have, and areas are placed on sheets of the
workbook. -/
structure WellNamed (book : Workbook) : Prop where
  sheets : ∀ sheet ∈ book.sheets, SheetName.fault? sheet.name = none
  words : ∀ entry ∈ book.names.entries, DefinedName.fault? entry.name = none
  distinct : book.names.Distinct
  targets : ∀ entry ∈ book.names.entries, entry.target.Placed ∧ book.Stores entry.target.sheet

theorem WellNamed.addSheet (hbook : book.WellNamed) (h : book.addSheet name = .ok book') :
    book'.WellNamed := by
  have hstores {sheet : String} (hsheet : book.Stores sheet) := hsheet.addSheet h
  obtain ⟨hfault, -, rfl⟩ := addSheet_eq_ok.mp h
  exact ⟨List.forall_mem_append.mpr ⟨hbook.sheets, List.forall_mem_singleton.mpr hfault⟩,
    hbook.words, hbook.distinct,
    fun entry hentry => (hbook.targets entry hentry).imp_right hstores⟩

theorem WellNamed.write (hbook : book.WellNamed) (h : book.write cell content = .ok book') :
    book'.WellNamed := by
  have hnames := sheetName?_write h
  obtain ⟨-, -, rfl⟩ := write_eq_ok.mp h
  refine ⟨fun sheet hsheet => ?_, hbook.words, hbook.distinct, fun entry hentry => ?_⟩
  · obtain ⟨sheet', hmem, rfl | rfl⟩ := mem_updateSheet hsheet
    · exact hbook.sheets sheet hmem
    · rw [Sheet.put_name]
      exact hbook.sheets sheet' hmem
  · obtain ⟨hplaced, hstores⟩ := hbook.targets entry hentry
    exact ⟨hplaced, (congrFun hnames _).trans hstores⟩

theorem WellFormed.ne_empty_of_stores (hbook : book.WellFormed) (h : book.Stores name) :
    name ≠ "" := by
  obtain ⟨sheet, hsheet, -⟩ := Option.map_eq_some_iff.mp h
  exact hbook.ne_empty_of_sheet? hsheet

theorem WellNamed.defineName (hbook : book.WellNamed) (hwell : book.WellFormed)
    (h : book.defineName name refersTo = .ok book') : book'.WellNamed := by
  obtain ⟨first, area, sheet, -, harea, hsheet, hfault, hget, rfl⟩ := defineName_eq_ok.mp h
  have hstores := stores_of_sheetName? hsheet
  have hplaced := (Reference.placed_of_readArea harea).move (hwell.ne_empty_of_stores hstores)
  exact ⟨hbook.sheets, List.forall_mem_cons.mpr ⟨hfault, hbook.words⟩, hbook.distinct.cons hget,
    List.forall_mem_cons.mpr ⟨⟨hplaced, hstores⟩, hbook.targets⟩⟩

theorem WellNamed.removeName (hbook : book.WellNamed) (name : String) :
    (book.removeName name).WellNamed where
  sheets := hbook.sheets
  words := fun entry hentry => hbook.words entry (List.mem_of_mem_filter hentry)
  distinct := hbook.distinct.filter _
  targets := fun entry hentry => hbook.targets entry (List.mem_of_mem_filter hentry)

theorem Built.wellNamed (h : book.Built) : book.WellNamed := by
  induction h with
  | empty => exact ⟨nofun, nofun, .nil, nofun⟩
  | new => exact ⟨List.forall_mem_singleton.mpr (by decide), nofun, .nil, nofun⟩
  | addSheet _ h ih => exact ih.addSheet h
  | write _ h ih => exact ih.write h
  | defineName hbuilt h ih => exact ih.defineName hbuilt.wellFormed h
  | removeName _ ih => exact ih.removeName _

/-- However the name of a sheet is spelled, a reference can show it. -/
theorem WellNamed.quotable_of_sheet? (hbook : book.WellNamed) {sheet : Sheet}
    (h : book.sheet? name = some sheet) : SheetName.Quotable name :=
  (SheetName.quotable_of_fault? (hbook.sheets sheet (List.mem_of_find?_eq_some h))).of_equal
    (equal_of_sheet? h)

theorem WellNamed.nameTarget? (hbook : book.WellNamed) {word : String} {area : Area}
    (h : book.nameTarget? word = some area) : area.Placed ∧ book.Stores area.sheet := by
  obtain ⟨entry, hentry, rfl⟩ := Option.map_eq_some_iff.mp h
  exact hbook.targets entry (List.mem_of_find?_eq_some hentry)

/-- Each defined name is found in any case of its ASCII letters. -/
theorem WellNamed.nameTarget?_of_equal (hbook : book.WellNamed) {entry : DefinedName}
    (hmem : entry ∈ book.names.entries) {word : String}
    (h : equalIgnoringCase entry.name word) : book.nameTarget? word = some entry.target := by
  have hget := hbook.distinct.get?_eq_some hmem (DefinedName.key_eq_of_equal h)
  exact Option.map_eq_some_iff.mpr ⟨entry, hget, rfl⟩

end Workbook

namespace Source

variable {source : Source} {name stored : String}

theorem sheet?_of_sheetName? (h : source.sheetName? name = some stored) :
    ∃ sheet, source.workbook.sheet? name = some sheet := by
  unfold sheetName? at h
  split at h
  · split at h
    · rename_i hsheet
      exact Option.isSome_iff_exists.mp hsheet
    · cases h
  · obtain ⟨sheet, hsheet, -⟩ := Option.map_eq_some_iff.mp h
    exact ⟨sheet, hsheet⟩

/-- A sheet that a source finds has a name that a reference can show. -/
theorem quotable_of_sheetName? (hbook : source.workbook.WellNamed)
    (h : source.sheetName? name = some stored) : SheetName.Quotable name := by
  obtain ⟨sheet, hsheet⟩ := sheet?_of_sheetName? h
  exact hbook.quotable_of_sheet? hsheet

end Source

end Spreadsheet
