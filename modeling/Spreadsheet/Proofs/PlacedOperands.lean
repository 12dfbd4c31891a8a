-- SUMMARY: Every area that an operand refers to is placed, however its reference was made.
import Spreadsheet.Proofs.Contracts
import Spreadsheet.Proofs.Naming
import Spreadsheet.Proofs.Nodes

/-!
# Operands refer to placed areas

References are read from text, stand for names, and are moved, cut, joined and collected by
functions and operators. All of these give placed areas if they are given placed areas. So whatever
is answered on the way, the operands of the formulas of a built workbook refer to placed areas.
-/

namespace Spreadsheet

open Evaluation

/-! ## Sites of a built workbook -/

namespace Site

variable {site : Site} {book : Workbook} {area : Area} {name sheet : String}

/-- The site is in a built workbook, on a sheet with a name. -/
structure InBook (site : Site) (book : Workbook) : Prop where
  built : book.Built
  source : site.source = { workbook := book }
  sheet_ne : site.cell.sheet ≠ ""

theorem InBook.ne_empty_of_sheetName? (h : site.InBook book)
    (hsheet : site.source.sheetName? name = some sheet) : sheet ≠ "" := by
  rw [h.source] at hsheet
  exact h.built.wellFormed.ne_empty_of_stores (Workbook.stores_of_sheetName? hsheet)

/-- A sheet that the site finds under its own name has a name. -/
theorem InBook.ne_empty_of_sheet? (h : site.InBook book) {sheet? : Option String}
    (hsheet : site.sheet? sheet? = some sheet) : sheet ≠ "" := by
  cases sheet? with
  | none =>
      cases hsheet
      exact h.sheet_ne
  | some name =>
      obtain ⟨stored, hstored, rfl⟩ := Option.map_eq_some_iff.mp hsheet
      rw [h.source] at hstored
      obtain ⟨found, hfound⟩ := Source.sheet?_of_sheetName? hstored
      exact h.built.wellFormed.ne_empty_of_sheet? hfound

theorem InBook.placed_of_found (h : site.InBook book) (hfound : site.Found area) :
    area.Placed := by
  cases hfound with
  | text hread => exact Reference.placed_of_readArea hread
  | counted hread => exact Reference.placed_of_readCountedArea h.sheet_ne hread
  | name hname =>
      rw [h.source] at hname
      exact (h.built.wellNamed.nameTarget? hname).1

theorem InBook.keeps_placed (h : site.InBook book) : site.Keeps Area.Placed :=
  have hfound (area : Area) (name sheet : String) (hfound : site.Found area)
      (hsheet : site.source.sheetName? name = some sheet) : Area.Placed { area with sheet } :=
    (h.placed_of_found hfound).move (h.ne_empty_of_sheetName? hsheet)
  { bounding := fun _ _ _ ha hb harea => ha.bounding hb harea
    offset := fun _ _ _ _ _ _ ha harea => ha.offset harea
    slice := fun _ _ _ _ ha hpart => ha.slice (Area.partOf_slice hpart)
    indirect := all_indirect hfound
    named := all_named hfound }

theorem InBook.writes_placed (h : site.InBook book) {node : Formula.Expr}
    (hnode : Formula.Node node) : site.Writes Area.Placed node := by
  cases node with
  | cell sheet? coord =>
      exact fun sheet hsheet =>
        .ofCell hnode.inGrid.1 hnode.inGrid.2 (h.ne_empty_of_sheet? hsheet)
  | area sheet? corners =>
      exact fun sheet hsheet => ⟨hnode.wellFormed.on sheet, h.ne_empty_of_sheet? hsheet⟩
  | _ => trivial

end Site

/-! ## Operands -/

namespace Formula.Expr

variable {site : Site} {book : Workbook} {entered : String} {e node : Expr}

/-- Whatever is answered, a part of a formula gives placed areas. -/
theorem meets_placed (h : site.InBook book) (he : ofText entered = .ok e) (hnode : node ∈ e.nodes) :
    (node.operand .builtins site).Meets {} (Operand.All Area.Placed) := by
  have hany {α : Type} (q : Inquiry α) : q.Meets {} fun a => ∃ b, a = b :=
    (Inquiry.meets_of_any (fun _ => trivial) (fun _ => trivial) (fun _ => trivial) q).mono
      (.refl _) fun a _ => ⟨a, rfl⟩
  have hreads : Site.Reads Area.Placed (fun _ => True)
      (fun R q _ => q.Meets {} fun a => ∃ b, R a b) site site := {
    cell := rfl
    sheetName := rfl
    nameTarget := rfl
    compose := Inquiry.Meets.congruence {}
    keeps := h.keeps_placed
    area := fun area _ => hany _
    used := fun area _ => (hany _).mono (.refl _) fun t _ => ⟨t, rfl⟩ }
  have hwrites : ∀ k ∈ node.nodes, site.Writes Area.Placed k :=
    fun k hk => h.writes_placed (node_of_ofText he k (nodes_subset hnode hk))
  exact (related_operand hreads Registry.builtins_regular (Registry.givesUp_of_any _) node
    (Site.admits_of_writes hwrites)).mono (.refl _) fun o ⟨_, _, ho⟩ => ho

end Formula.Expr

/-! ## All references -/

namespace Reference

/-- **Every reference is well formed.** An area is placed if its one sheet has a name, its corners
lie in order in the grid, whole columns have all rows and whole rows have all columns. Every area
that is read from a text in either style is placed, and so is what a defined name of a workbook
stands for. Moving and sizing an area, joining two, taking a part that `INDEX` can choose, cutting
to some rows and columns, and ending whole columns and rows with the used part give placed areas if
they are given such. So in a built workbook, however an inquiry is recorded and answered, every
area of a reference that a part of a formula gives is placed. -/
theorem areas_placed :
    (∀ cs sheet area, readArea cs sheet = .ok area → area.Placed) ∧
    (∀ cs base area, base.sheet ≠ "" → readCountedArea cs base = .ok area →
      area.Placed) ∧
    (∀ book name refersTo book', Workbook.Built book →
      book.defineName name refersTo = .ok book' →
        ∀ entry ∈ book'.names.entries, entry.target.Placed) ∧
    (∀ (base area : Area) dRow dCol height width, base.Placed →
      base.offset dRow dCol height width = .ok area → area.Placed) ∧
    (∀ a b area : Area, a.Placed → b.Placed → a.bounding b = .ok area → area.Placed) ∧
    (∀ (area : Area) rowNum colNum? part, area.Placed →
      Function.slice area.height area.width rowNum colNum? = .ok part →
        (Function.sliceOfArea area part).Placed) ∧
    (∀ (area used : Area) rows cols, area.Placed → area.within? rows cols = some used →
      used.Placed) ∧
    (∀ (area : Area) rows cols, area.Placed → (area.clip rows cols).Placed) ∧
    ∀ book (site : Site), site.InBook book → ∀ entered e, Formula.Expr.ofText entered = .ok e →
      ∀ node ∈ e.nodes, ∀ (record : Reading → Evaluation Unit)
        (answer : CellAddress → Evaluation Value) (m m' : Memory) o,
        ((node.operand .builtins site).run record answer).on m = (.ok o, m') →
          o.All Area.Placed := by
  refine ⟨fun _ _ _ => placed_of_readArea,
    fun _ _ _ => placed_of_readCountedArea, ?_, fun _ _ _ _ _ _ => Area.Placed.offset,
    fun _ _ _ => Area.Placed.bounding, ?_, fun _ _ _ _ => Area.Placed.within?,
    fun _ rows cols ha => ha.clip rows cols, ?_⟩
  · intro book name refersTo book' hbook h entry hentry
    exact ((hbook.defineName h).wellNamed.targets entry hentry).1
  · exact fun _ _ _ _ ha hpart => ha.slice (Area.partOf_slice hpart)
  · intro book site h entered e he node hnode record answer m m' o hrun
    exact (Formula.Expr.meets_placed h he hnode).of_run (fun _ _ => trivial) hrun

set_option maxRecDepth 4000 in
/-- Two whole columns that are read in both styles, named, moved, joined, sliced, cut, and asked for
by their text. -/
theorem areas_placed_columns :
    let columns (first last : Nat) := Area.wholeColumns "Sheet1" first last
    let both : DefinedName := { name := "both", target := columns 1 2 }
    readArea "$A:B".toList "Sheet1" = .ok (columns 1 2) ∧ (columns 1 2).Placed ∧
      readCountedArea "C[-1]:C2".toList ⟨"Sheet1", 5, 2⟩ = .ok (columns 1 2) ∧
      Workbook.new.defineName "both" "A:B" =
        .ok { Workbook.new with names := { entries := [both] } } ∧ both.target.Placed ∧
      (columns 2 3).Placed ∧ (columns 1 3).Placed ∧ (columns 2 2).Placed ∧
      (⟨"Sheet1", 1, 1, 9, 2, .cells⟩ : Area).Placed ∧ ((columns 1 2).clip 9 5).Placed ∧
      (Operand.ofArea (columns 1 2)).All Area.Placed := by
  intro columns both
  obtain ⟨htext, hcounted, hname, hoffset, hbounding, hslice, hwithin, hclip, hrun⟩ := areas_placed
  have hread : readArea "$A:B".toList "Sheet1" = .ok (columns 1 2) := by decide +kernel
  have hcount : readCountedArea "C[-1]:C2".toList ⟨"Sheet1", 5, 2⟩ = .ok (columns 1 2) := by
    decide +kernel
  have hdefine : Workbook.new.defineName "both" "A:B" =
      .ok { Workbook.new with names := { entries := [both] } } :=
    Workbook.defineName_eq_ok.mpr ⟨"Sheet1", columns 1 2, "Sheet1", rfl, by decide +kernel,
      by decide, by decide, rfl, rfl⟩
  have hplaced : (columns 1 2).Placed := hcounted _ _ _ (by decide) hcount
  have hmoved := hoffset _ (columns 2 3) 0 1 none none (htext _ _ _ hread) (by decide +kernel)
  refine ⟨hread, hplaced, hcount, hdefine, hname _ _ _ _ .new hdefine both List.mem_cons_self,
    hmoved, ?_, ?_, ?_, hclip _ _ _ hplaced, ?_⟩
  · exact hbounding (columns 1 2) _ _ hplaced hmoved (by decide)
  · exact hslice (columns 1 2) 0 (some 2) (.column 1) hplaced (by decide +kernel)
  · exact hwithin (columns 1 2) _ 9 5 hplaced (by decide)
  · have hsite : Site.InBook ⟨{ workbook := .pair true "A1" }, Workbook.pairFormula, 1⟩
        (.pair true "A1") := ⟨Workbook.built_pair _ _, rfl, by decide⟩
    have hformula : Formula.Expr.ofText "=INDIRECT(\"A:B\")" =
        .ok (.call "INDIRECT" [.literal (.text "A:B")]) := by decide +kernel
    exact hrun _ _ hsite _ _ hformula _ List.mem_cons_self (fun _ => pure ())
      (fun _ => pure .blank) {} {} _ (by rfl)

end Reference

end Spreadsheet
