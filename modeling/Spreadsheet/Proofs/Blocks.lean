-- SUMMARY: An area evaluates to the table of what its cells evaluate to.
import Spreadsheet.Proofs.Queries
import Spreadsheet.Proofs.Spelling
import Spreadsheet.Proofs.UsedCells

/-!
# Areas and their cells

An area evaluates to the table of what its cells evaluate to. Only used cells are asked for, one
after the other, so more and more is remembered in between. Where no circle is met, a cell that has
a value keeps it however much more is remembered, and the cells that are not asked for are blank.
-/

namespace Spreadsheet

open Evaluation Inquiry

/-! ## Blocks as tables -/

namespace Area

variable {area block : Area} {rows cols : Nat}

/-- The table of the scalars of the cells. -/
def tabulate (block : Area) (scalar : CellAddress → Scalar) : Table :=
  ⟨block.height, block.width, (block.cells.map scalar).toArray⟩

theorem contains_of_renamed {sheet : String} {c : CellAddress}
    (hc : (block.renamed sheet).contains c) :
    block.contains (c.renamed block.sheet) ∧ (c.renamed block.sheet).renamed sheet = c := by
  obtain ⟨_, row, col⟩ := c
  obtain rfl := (contains_iff.mp hc).1
  exact ⟨contains_renamed block _ (c := ⟨block.sheet, row, col⟩) rfl ▸ hc, rfl⟩

theorem get?_tabulate {scalar : CellAddress → Scalar} {i j : Nat} (hi : i < block.height)
    (hj : j < block.width) :
    (block.tabulate scalar).get? i j =
      some (scalar ⟨block.sheet, block.top + i, block.left + j⟩) := by
  have hlt : i * block.width + j < block.cells.length :=
    block.length_cells ▸ place_lt_size hi hj
  unfold tabulate Table.get?
  dsimp only
  rw [if_pos ⟨hi, hj⟩, List.getElem?_toArray, List.getElem?_map, List.getElem?_eq_getElem hlt,
    getElem_cells hlt, cellAt_place hj]
  rfl

theorem valid_tabulate (block : Area) (scalar : CellAddress → Scalar) :
    (block.tabulate scalar).Valid :=
  ⟨Nat.succ_pos _, block.width_pos, by simp [tabulate, length_cells, size]⟩

theorem not_isSingleCell (h : 1 < area.size) : ¬ area.isSingleCell := by
  intro hsingle
  simp only [isSingleCell, Bool.and_eq_true, beq_iff_eq] at hsingle
  simp [size, height, width, hsingle.1, hsingle.2] at h

end Area

/-! ## Reading blocks -/

namespace Site

variable {site : Site} {area block : Area} {used : Option Area}

theorem asksOnly_readBlock_used (block : Area) (used : Option Area) :
    (readBlock block used).AsksOnly fun c => used.any (·.contains c) := by
  have hcells (count : Nat) (read : Array Scalar) :
      (readCells block used count read).AsksOnly fun c => used.any (·.contains c) := by
    induction count generalizing read with
    | zero => trivial
    | succ count ih =>
        unfold readCells
        dsimp only
        split
        · rename_i hused
          exact ⟨hused, fun v => ih _⟩
        · exact ih _
  exact (hcells _ _).bind fun _ => trivial

/-- Only cells in the used part of the sheet are asked for. -/
theorem asksOnly_covered (site : Site) (ha : area.Proper) (hsize : 1 < area.size) :
    (site.readArea area).AsksOnly fun c => area.contains c ∧ site.source.Covers c := by
  unfold readArea
  rw [if_neg (Area.not_isSingleCell hsize)]
  dsimp only
  unfold AsksOnly
  split
  · trivial
  · refine ((asksOnly_readBlock_used _ _).mono fun c hc => ?_).bind fun _ => trivial
    obtain ⟨hin, hcovers⟩ := (site.source.any_within?_iff Area.clip_sheet).mp hc
    exact ⟨Area.contains_of_clip ha hin, hcovers⟩

section

variable (record : Reading → Evaluation Unit) {answer : CellAddress → Evaluation Value}
  {holds : Memory → Prop} {scalar : CellAddress → Scalar} (hblock : block.Proper)
  (hused : ∀ c, block.contains c → used.any (·.contains c) → ∀ m, holds m →
    ∃ v m', (answer c).on m = (.ok v, m') ∧ v.toScalar = scalar c ∧ holds m')
  (hblank : ∀ c, block.contains c → ¬ used.any (·.contains c) → scalar c = .blank)
include hblock hused hblank

/-- If an invariant of the memory makes each used cell answer with a scalar of its own, and the
other scalars are blank, then these scalars are read. -/
theorem readCells_on {α : Type} (f : Array Scalar → Inquiry α) {count : Nat}
    (hcount : count ≤ block.size) (read : Array Scalar) {m : Memory} (hm : holds m) :
    ∃ m', holds m' ∧ (((readCells block used count read).bind f).run record answer).on m =
      ((f (read ++ ((block.cells.drop (block.size - count)).map scalar).toArray)).run record
        answer).on m' := by
  induction count generalizing read m with
  | zero =>
      refine ⟨m, hm, ?_⟩
      rw [block.drop_cells_zero, List.map_nil, Array.append_empty]
      rfl
  | succ count ih =>
      have hin := Area.contains_cellAt hblock (i := block.size - (count + 1)) (by omega)
      rw [Area.drop_cells_succ hcount, List.map_cons]
      unfold readCells
      dsimp only
      split
      · rename_i hany
        obtain ⟨v, m₁, hon, hv, hm₁⟩ := hused _ hin hany m hm
        obtain ⟨m', hm', hrun⟩ := ih (by omega) (read.push v.toScalar) hm₁
        refine ⟨m', hm', ?_⟩
        simp only [Inquiry.bind, run]
        rw [on_bind_ok hon, hrun, hv]
        simp
      · rename_i hany
        obtain ⟨m', hm', hrun⟩ := ih (by omega) (read.push .blank) hm
        refine ⟨m', hm', ?_⟩
        rw [hrun, hblank _ hin hany]
        simp

theorem readBlock_on {m : Memory} (hm : holds m) :
    ∃ m', holds m' ∧ (((readBlock block used).bind fun t => .done (.table t)).run record
      answer).on m = (.ok (Value.table (block.tabulate scalar)), m') := by
  unfold readBlock
  rw [Inquiry.bind_assoc]
  obtain ⟨m', hm', hrun⟩ := readCells_on record hblock hused hblank
    (fun cells => .done (Value.table ⟨block.height, block.width, cells⟩)) (Nat.le_refl _)
    (.emptyWithCapacity block.size) hm
  refine ⟨m', hm', hrun.trans ?_⟩
  simp [Area.tabulate, run]

end

end Site

/-! ## Sheets in any case -/

namespace Source

variable {source : Source} {area : Area} {c corner : CellAddress}

theorem sameSheet_of_canonical (h : source.canonical c = .ok corner) :
    source.SameSheet c.sheet corner.sheet := by
  obtain ⟨-, stored, hstored, rfl⟩ := canonical_eq_ok.mp h
  exact ⟨stored, hstored, spells_of_sheetName? hstored⟩

/-- The cells of an area are spelled as its corner is. -/
theorem canonical_of_corner (h : source.canonical area.topLeft = .ok corner) (harea : area.InGrid)
    (hc : area.contains c) : source.canonical c = .ok (c.renamed corner.sheet) := by
  obtain ⟨⟨hne, -⟩, stored, hstored, rfl⟩ := canonical_eq_ok.mp h
  have hsheet : c.sheet = area.sheet := (Area.contains_iff.mp hc).1
  exact canonical_eq_ok.mpr
    ⟨⟨hsheet ▸ hne, harea.of_contains hc⟩, stored, hsheet ▸ hstored, rfl⟩

end Source

theorem Query.inquiry_area {engine : Engine} {area : Area} {corner : CellAddress}
    (hcorner : engine.source.canonical area.topLeft = .ok corner) :
    inquiry engine (.area area) =
      .ok (Site.readArea ⟨engine.source, corner, 0⟩ { area with sheet := corner.sheet }) := by
  simp only [inquiry, hcorner]
  rfl

/-! ## Cells and areas of an evaluator -/

namespace Evaluator

variable {ev : Evaluator} {cell x : CellAddress} {area : Area} {M : Memory} {v : Value}

/-- The memory is as the engine would compute it, and has all that the evaluator remembers. -/
structure Grown (ev : Evaluator) (M : Memory) : Prop where
  formulas : ev.FormulasRead M
  faithful : ev.Faithful M
  more : Runs.Fuller (fun _ => True) ev.memory M

theorem Reliable.grown (hev : ev.Reliable) : ev.Grown ev.memory :=
  ⟨hev.formulas, hev.faithful, fun _ hx => ⟨trivial, hx⟩⟩

/-- The value of a cell as the source spells it. -/
def found (ev : Evaluator) (x : CellAddress) : Except Failure Value :=
  ((ev.cellValue ev.settings.maxDepth [] x).on ev.memory).1

/-- The scalar of a cell as the source spells it, a blank if it has no value. -/
def shown (ev : Evaluator) (x : CellAddress) : Scalar :=
  match ev.found x with
  | .ok v => v.toScalar
  | .error _ => .blank

theorem shown_of_found (hx : ev.found x = .ok v) : ev.shown x = v.toScalar := by
  unfold shown
  rw [hx]

theorem evaluate_eq_found (hx : ev.source.canonical cell = .ok x) :
    (ev.evaluate cell).1 = ev.found x := by
  unfold evaluate
  rw [run_eq, on_bind, on_liftFault, hx]
  rfl

section

variable (hregistry : ev.registry = .builtins) (hcircle : ∀ cell, ev.CircleFree cell)
  (hev : ev.Reliable)
include hregistry hcircle hev

/-- A value that is found now is found again, however much more is remembered. -/
theorem Grown.cellValue (hM : ev.Grown M) (hx : ev.found x = .ok v) :
    ∃ M', (ev.cellValue ev.settings.maxDepth [] x).on M = (.ok v, M') ∧ ev.Grown M' := by
  have hu : ev.Uniform := Engine.uniform hregistry
  obtain ⟨n, r, hr⟩ := Engine.exists_plain hu (hcircle x)
  have hattains : ev.Attains n (.cell ev.settings.maxDepth [] x) r := ⟨hr, by simp [Task.chain]⟩
  obtain ⟨s, m', hon, -, hruns⟩ := ev.visits ev.settings.maxDepth [] x hev.formulas
  obtain ⟨s', M', hon', hread', hruns'⟩ := ev.visits ev.settings.maxDepth [] x hM.formulas
  obtain rfl : s = .ok v := by
    rw [found, hon] at hx
    exact hx
  have hdeep : (.ok v : Except Failure Value) ≠ .error (.tooDeep ev.settings.maxDepth) := by simp
  obtain ⟨rfl, hmore⟩ := hruns.carried (Engine.Carries.refl ev.toEngine) hu hu rfl hruns'
    (.cell (by simp) trivial) hev.faithful hM.faithful hM.more hattains hdeep
  refine ⟨M', hon', hread', (hruns'.attains hu hM.faithful hattains).1, fun y hy => ?_⟩
  exact hmore y (hruns.remembers_grow hy)

/-- An area whose sheet is spelled as stored comes to the table of what its cells come to. -/
theorem readArea_on (hbook : ev.source.workbook.WellFormed) {site : Site}
    (hsource : site.source = ev.source) (harea : area.InGrid)
    (hspells : ev.source.Spells area.sheet) (hsize : 1 < area.size) :
    let block := area.clip (ev.source.extent area.sheet).1 (ev.source.extent area.sheet).2
    block.size ≤ maxTableCells → (∀ c, block.contains c → ∃ v, ev.found c = .ok v) →
      ((ev.answer (site.readArea area)).on ev.memory).1 =
        .ok (.table (block.tabulate ev.shown)) := by
  intro block hmax hfound
  let used := block.within? (ev.source.extent area.sheet).1 (ev.source.extent area.sheet).2
  have hused : ∀ c, block.contains c → used.any (·.contains c) → ∀ M, ev.Grown M →
      ∃ v M', (ev.cellValue ev.settings.maxDepth [] c).on M = (.ok v, M') ∧
        v.toScalar = ev.shown c ∧ ev.Grown M' := by
    intro c hc _ M hM
    obtain ⟨v, hv⟩ := hfound c hc
    obtain ⟨M', hon, hM'⟩ := hM.cellValue hregistry hcircle hev hv
    exact ⟨v, M', hon, (shown_of_found hv).symm, hM'⟩
  -- outside of the used part no cell is asked for, and none holds anything
  have hblank : ∀ c, block.contains c → ¬ used.any (·.contains c) → ev.shown c = .blank := by
    intro c hc hnot
    have hunused : ev.Unused c :=
      .of_contains harea ⟨_, hspells⟩ (Area.contains_of_clip harea.toProper hc) fun hcovers =>
        hnot ((ev.source.any_within?_iff Area.clip_sheet).mpr ⟨hc, hcovers⟩)
    refine shown_of_found (v := .blank) ?_
    unfold found
    rw [hunused.cellValue hbook (List.forall_mem_nil _)]
  obtain ⟨m', -, hrun⟩ := Site.readBlock_on (fun _ => pure ()) (harea.toProper.clip _ _) hused
    hblank hev.grown
  unfold Site.readArea
  rw [if_neg (Area.not_isSingleCell hsize), hsource]
  dsimp only
  rw [if_neg (Nat.not_lt.mpr hmax)]
  exact congrArg Prod.fst hrun

/-- The same in whatever case the sheet is spelled. -/
theorem evaluateArea_tabulate (hbook : ev.source.workbook.WellFormed) (harea : area.InGrid)
    {corner : CellAddress} (hcorner : ev.source.canonical area.topLeft = .ok corner)
    (hsize : 1 < area.size) :
    let block := area.clip (ev.source.extent area.sheet).1 (ev.source.extent area.sheet).2
    block.size ≤ maxTableCells → (∀ c, block.contains c → ∃ v, (ev.evaluate c).1 = .ok v) →
      (ev.evaluateArea area).1 = .ok (.table ((block.renamed corner.sheet).tabulate ev.shown)) := by
  intro block hmax hcells
  have hextent := (Source.sameSheet_of_canonical hcorner).extent
  have hclip : (area.renamed corner.sheet).clip (ev.source.extent corner.sheet).1
      (ev.source.extent corner.sheet).2 = block.renamed corner.sheet := by
    rw [hextent, Area.clip_renamed]
    rfl
  -- the cells are asked for on the sheet as it is stored, and answered there as evaluated
  have hfound (c : CellAddress) (hc : (block.renamed corner.sheet).contains c) :
      ∃ v, ev.found c = .ok v := by
    obtain ⟨hin, hsheet⟩ := Area.contains_of_renamed hc
    obtain ⟨v, hv⟩ := hcells _ hin
    have hcanonical := Source.canonical_of_corner hcorner harea
      (Area.contains_of_clip harea.toProper hin)
    rw [hsheet] at hcanonical
    exact ⟨v, (evaluate_eq_found hcanonical).symm.trans hv⟩
  have hsource : Site.source ⟨ev.source, corner, 0⟩ = ev.source := rfl
  have hmoved : (area.renamed corner.sheet).InGrid := harea.move corner.sheet
  have hread := readArea_on hregistry hcircle hev hbook hsource hmoved
    (Source.canonical_spells hcorner) hsize
  dsimp only [Area.sheet_renamed] at hread
  rw [hclip] at hread
  unfold evaluateArea
  rw [run_eq, on_bind, on_liftFault, hcorner]
  exact hread hmax hfound

end

/-- **The value of an area is the table of its cells.** Take a built workbook without circles, an
evaluator that was asked any queries, and an area of at least two cells on a sheet that exists,
whatever the case of its name. Whole columns and rows end with the used part of the sheet, and what
is left may not be too large for a table. If the evaluator gives a value for each cell of it, then
the area evaluates to a table of as many rows and columns, and the table holds the scalar of the
value of each cell at its place. Only cells of the area in the used part of the sheet are asked
for. -/
theorem evaluateArea_eq_cells {book : Workbook} (hbook : book.Built) (settings : Settings)
    (hcircle : ∀ cell, Engine.CircleFree { source := { workbook := book }, settings } cell)
    (queries : List Query) {area : Area} (harea : area.InGrid) (hsheet : book.hasSheet area.sheet)
    (hsize : 1 < area.size) :
    let ev := (fresh { source := { workbook := book }, settings }).queried queries
    let extent := ev.source.extent area.sheet
    let block := area.clip extent.1 extent.2
    let place (i j : Nat) : CellAddress := ⟨area.sheet, block.top + i, block.left + j⟩
    block.size ≤ maxTableCells →
    (∀ i < block.height, ∀ j < block.width, ∃ v, (ev.evaluate (place i j)).1 = .ok v) →
      (∃ t, (ev.evaluateArea area).1 = .ok (.table t) ∧ t.Valid ∧ t.rows = block.height ∧
        t.cols = block.width ∧ ∀ i < block.height, ∀ j < block.width, ∃ v,
          (ev.evaluate (place i j)).1 = .ok v ∧ t.get? i j = some v.toScalar) ∧
      ∃ q, Query.inquiry ev.toEngine (.area area) = .ok q ∧
        q.AsksOnly fun c =>
          area.contains { c with sheet := area.sheet } ∧ ev.source.Covers c := by
  intro ev
  obtain ⟨hev, hengine⟩ :
      ev.Reliable ∧ ev.toEngine = { source := { workbook := book }, settings } :=
    reliable_queried rfl hcircle queries
  clear_value ev
  intro extent block place hmax hcells
  have hsource : ev.source = { workbook := book } := congrArg Engine.source hengine
  have hregistry : ev.registry = .builtins := congrArg Engine.registry hengine
  have hwell : ev.source.workbook.WellFormed := hsource ▸ hbook.wellFormed
  have hblock : block.Proper := harea.toProper.clip _ _
  have hsheet : ev.source.workbook.hasSheet area.topLeft.sheet := hsource ▸ hsheet
  obtain ⟨hrow, hcol⟩ := harea.of_contains (Area.contains_topLeft harea.toProper)
  obtain ⟨corner, hcorner, -⟩ := Engine.exists_canonical hwell hrow hcol hsheet
  have hplace {i j : Nat} (hi : i < block.height) (hj : j < block.width) :
      block.contains (place i j) := by
    have hin := Area.contains_place hblock hi hj
    rwa [Area.clip_sheet] at hin
  constructor
  · refine ⟨_, evaluateArea_tabulate hregistry (hengine ▸ hcircle) hev hwell harea hcorner hsize
      hmax ?_, Area.valid_tabulate _ _, rfl, rfl, fun i hi j hj => ?_⟩
    · intro c hc
      obtain ⟨i, hi, j, hj, rfl⟩ := Area.exists_place hc
      rw [Area.clip_sheet]
      exact hcells i hi j hj
    · obtain ⟨v, hv⟩ := hcells i hi j hj
      have hcanonical := Source.canonical_of_corner hcorner harea
        (Area.contains_of_clip harea.toProper (hplace hi hj))
      have hshown : ev.shown ((place i j).renamed corner.sheet) = v.toScalar :=
        shown_of_found ((evaluate_eq_found hcanonical).symm.trans hv)
      exact ⟨v, hv, (@Area.get?_tabulate (block.renamed corner.sheet) _ i j hi hj).trans
        (congrArg some hshown)⟩
  · refine ⟨_, Query.inquiry_area hcorner, ?_⟩
    have hasks := (⟨ev.source, corner, 0⟩ : Site).asksOnly_covered
      (Site.proper_move harea.toProper corner.sheet) hsize
    exact hasks.mono fun c hc => ⟨(Area.contains_of_renamed hc.1).1, hc.2⟩

set_option maxRecDepth 4000 in
/-- Two whole columns, of which one row is used, after the formula was computed. -/
theorem evaluateArea_eq_cells_pair :
    let ev := (fresh (.pair true "A1")).queried [.cell Workbook.pairFormula]
    ∃ t, (ev.evaluateArea (.wholeColumns "sheet1" 1 2)).1 = .ok (.table t) ∧ t.rows = 1 ∧
      t.cols = 2 ∧ t.get? 0 0 = some (.bool true) ∧ t.get? 0 1 = some (.bool true) := by
  intro ev
  have hclip : (Area.wholeColumns "sheet1" 1 2).clip (ev.source.extent "sheet1").1
      (ev.source.extent "sheet1").2 = ⟨"sheet1", 1, 1, 1, 2, .cells⟩ := by rfl
  have hvalue : (ev.evaluate ⟨"sheet1", 1, 1⟩).1 = .ok (.scalar (.bool true)) := by decide +kernel
  have hformula : (ev.evaluate ⟨"sheet1", 1, 2⟩).1 = .ok (.scalar (.bool true)) := by decide +kernel
  have hall : ∀ i < 1, ∀ j < 2, ∃ v, (ev.evaluate ⟨"sheet1", 1 + i, 1 + j⟩).1 = .ok v := by
    intro i hi j hj
    obtain rfl : i = 0 := by omega
    obtain rfl | rfl : j = 0 ∨ j = 1 := by omega
    · exact ⟨_, hvalue⟩
    · exact ⟨_, hformula⟩
  have harea : (Area.wholeColumns "sheet1" 1 2).InGrid :=
    ⟨.wholeColumns (Nat.le_refl 1) (by decide), by decide, by decide⟩
  have hcircle : ∀ cell, (Engine.pair true "A1").CircleFree cell :=
    Engine.circleFree_firstCell rfl rfl
  have hmax : ((Area.wholeColumns "sheet1" 1 2).clip (ev.source.extent "sheet1").1
      (ev.source.extent "sheet1").2).size ≤ maxTableCells := by
    rw [hclip]
    decide
  obtain ⟨⟨t, ht, -, hrows, hcols, hcells⟩, -⟩ := evaluateArea_eq_cells
    (Workbook.built_pair true "A1") {} hcircle [.cell Workbook.pairFormula] harea rfl (by decide)
    hmax hall
  obtain ⟨v, hv, hfirst⟩ := hcells 0 (by decide) 0 (by decide)
  obtain ⟨w, hw, hsecond⟩ := hcells 0 (by decide) 1 (by decide)
  obtain rfl : v = .scalar (.bool true) := Except.ok.inj (hv.symm.trans hvalue)
  obtain rfl : w = .scalar (.bool true) := Except.ok.inj (hw.symm.trans hformula)
  exact ⟨t, ht, hrows, hcols, hfirst, hsecond⟩

end Evaluator

end Spreadsheet
