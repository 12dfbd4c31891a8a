-- SUMMARY: A write of what a value is not recorded to read leaves it, if tables keep their shape.
import Spreadsheet.Proofs.Computations
import Spreadsheet.Proofs.Survival

/-!
# What a value depends on

Once a cell has been computed, all that its value needs is recorded, remembered or not. A
write of a cell that is not recorded leaves the value, unless a table of whole columns or
rows it was computed from takes another shape, or the written cell was read in another
spelling.
-/

namespace Spreadsheet

namespace Engine

variable {engine engine' : Engine} {a c x y : CellAddress} {m : Memory} {n : Nat} {v : Value}

/-- The computations behind the value of a cell read tables that keep their shape in the other
engine, and hold the written cell in no other spelling. -/
def Steady (engine engine' : Engine) (a x : CellAddress) : Prop :=
  ∀ depth y v readings asked, .computed y v readings asked ∈ engine.events depth [] x {} →
    ∀ reading ∈ readings, engine.source.KeepsCut engine'.source reading ∧
      ∀ c, reading.region.contains c → engine.source.SameCell a c → c = a

/-- What is read by the formulas that a value needs is recorded. -/
def RecordsNeeds (engine : Engine) (m : Memory) (x : CellAddress) : Prop :=
  ∀ y, engine.Needs x y → engine.IsFormula y → engine.Recorded m y

/-- What a formula reads is recorded to be read, and so is what it asks for. -/
theorem RecordsNeeds.reads (hregistry : engine.registry = .builtins)
    (hnames : engine.source.NamesProper) (h : engine.RecordsNeeds m x) (hy : engine.Needs x y) :
    Relation.ReflTransGen m.Reads x y := by
  induction hy with
  | refl => exact .refl
  | @tail y z hneeds hasks ih =>
      have hformula := hasks.isFormula
      obtain ⟨r, readings, asked, hcomputes, hz⟩ := hasks
      obtain ⟨reading, hreading, hcontains⟩ := hcomputes.announced hregistry hnames hz
      have hrecorded := h y hneeds hformula r readings asked hcomputes reading hreading
      exact ih.tail ⟨reading.precedent, hrecorded, hcontains⟩

/-- A whole column keeps its shape as long as the sheet has the same rows in use. -/
theorem steady_firstColumn (hregistry : engine.registry = .builtins)
    {b : Bool} (hbook : engine.source.workbook = .pair b "A:A")
    (hrows : ∀ sheet, (engine'.source.extent sheet).1 = (engine.source.extent sheet).1)
    (ha : 1 < a.col) : engine.Steady engine' a x := by
  intro depth y v readings asked hevent reading hreading
  obtain ⟨e, n, he, -, rfl, -⟩ := (circleFree_firstColumn hregistry hbook x).computes_of_event
    (uniform hregistry) hevent
  obtain ⟨-, -, rfl⟩ := holding_pair hbook (hregistry ▸ readFormula_firstColumn) he
  rw [inquiry_firstColumn] at hreading
  obtain rfl := Site.eq_of_mem_readings hreading
  rw [if_neg (by simp [Area.isSingleCell, Area.wholeColumns, Area.ofCorners, Grid.maxRows])]
  refine ⟨.inl ?_, ?_⟩
  · simp only [Area.clip, Area.wholeColumns, hrows]
  · rintro c hc ⟨-, -, hcol⟩
    have hright : c.col ≤ 1 := (Area.contains_iff.mp hc).2.2.2.2
    omega

/-- Where a formula is an area and nothing else, another shape of the table is another value. -/
theorem plain_ne_of_not_keepsCut {corners : Corners} {n' : Nat} {v' : Value}
    (he : engine.holding x = .formula (.area none corners))
    (he' : engine'.holding x = .formula (.area none corners))
    (hsingle : ¬ (corners.on x.sheet).isSingleCell)
    (hcut : ¬ engine.source.KeepsCut engine'.source (.table (corners.on x.sheet)))
    (h : engine.plain n x = some (.ok v)) (h' : engine'.plain n' x = some (.ok v')) : v' ≠ v := by
  cases n with
  | zero =>
      rw [plain_zero he] at h
      cases h
  | succ n =>
      cases n' with
      | zero =>
          rw [plain_zero he'] at h'
          cases h'
      | succ n' =>
          rw [plain_succ he] at h
          rw [plain_succ he'] at h'
          exact Site.ne_of_not_keepsCut hsingle hcut h h'

variable (hregistry : engine.registry = .builtins) (hnames : engine.source.NamesProper)
  (hneeds : engine.RecordsNeeds m x) (hx : engine.plain n x = some (.ok v))
  (hsteady : engine.Steady engine' a x) (hapart : ¬ Relation.TransGen m.Reads x a)
include hregistry hnames hneeds hx hsteady hapart

/-- All that a value needs overlooks a write of a cell that is not recorded for it. -/
theorem Steady.overlooks (hy : engine.Needs x y) {r : Except Failure Value}
    {readings : List Reading} {asked : List CellAddress}
    (hcomputes : engine.Computes y r readings asked) :
    ∀ reading ∈ readings, engine.source.Overlooks engine'.source a reading := by
  intro reading hreading
  have hformula : engine.IsFormula y := by
    obtain ⟨e, _, he, -⟩ := id hcomputes
    exact ⟨e, he⟩
  obtain ⟨depth, w, hevent⟩ := hy.event (uniform hregistry) hformula hx hcomputes
  obtain ⟨hcut, hspelling⟩ := hsteady depth y w readings asked hevent reading hreading
  refine ⟨fun c hc hsame => hapart ?_, hcut⟩
  have hrecorded := hneeds y hy hformula r readings asked hcomputes reading hreading
  exact .tail' (hneeds.reads hregistry hnames hy)
    ⟨reading.precedent, hrecorded, hspelling c hc hsame ▸ hc⟩

/-- Nothing that a value needs is the written cell. -/
theorem Steady.apart (hself : ¬ engine.source.SameCell a x) (hy : engine.Needs x y) :
    ¬ engine.source.SameCell a y := by
  obtain rfl | ⟨z, hz, _, readings, asked, hcomputes, hasked⟩ := Relation.ReflTransGen.cases_tail hy
  · exact hself
  · obtain ⟨reading, hreading, hcontains⟩ := hcomputes.announced hregistry hnames hasked
    exact (hsteady.overlooks hregistry hnames hneeds hx hapart hz hcomputes reading
      hreading).apart y hcontains

/-- What a value needs is carried over by the write. -/
theorem Steady.carries {book' : Workbook} {content : CellContent}
    (hengine : engine' = engine.rewritten book') (hstored : engine.source.asAsked = false)
    (hbook : engine.source.workbook.WellFormed)
    (hwrite : engine.source.workbook.write a content = .ok book')
    (hself : ¬ engine.source.SameCell a x) :
    Carries engine engine' (engine.Needs x) (fun _ => True)
      (engine.source.Added engine'.source a)
      (engine.source.Overlooks engine'.source a) := by
  subst hengine
  refine .of_write hregistry hstored hbook hwrite (fun c depth => Site.keeps_proper hnames)
    (fun area h => h) (fun _ _ _ _ => trivial) (fun reading _ hstable => hstable)
    (fun c hc => hsteady.apart hregistry hnames hneeds hx hapart hself hc) ?_ ?_
  · exact fun c _ e he depth => Formula.Expr.writes_proper (proper_of_holding he) _
  · intro c hc r readings asked hcomputes
    refine ⟨hsteady.overlooks hregistry hnames hneeds hx hapart hc hcomputes, fun y hy => ?_⟩
    exact hc.tail ⟨r, readings, asked, hcomputes, hy⟩

end Engine

namespace Evaluator

open Engine Workbook

variable {book : Workbook} {settings : Settings}

/-- A fresh evaluator finds the value of a cell that is carried over, at the same bound. -/
theorem evaluate_carried {engine engine' : Engine} {cell x : CellAddress} {n : Nat} {v w : Value}
    {stays good spare : CellAddress → Prop} {stable : Reading → Prop}
    (hcarries : Carries engine engine' stays good spare stable) (hu : engine.Uniform)
    (hu' : engine'.Uniform) (hsettings : engine'.settings = engine.settings)
    (hx : engine.source.canonical cell = .ok x) (hx' : engine'.source.canonical cell = .ok x)
    (hstays : stays x) (hgood : good x) (hplain : engine.plain n x = some (.ok v))
    (h : ((fresh engine).evaluate cell).1 = .ok w) :
    ((fresh engine').evaluate cell).1 = .ok w := by
  have hfresh := reliable_fresh engine
  have hfresh' := reliable_fresh engine'
  obtain ⟨_, s, m, log, hreply, hruns, -, -⟩ :=
    reply_runs hfresh.formulas (Query.inquiry_cell hx)
  obtain ⟨_, s', m', log', hreply', hruns', -, -⟩ :=
    reply_runs hfresh'.formulas (Query.inquiry_cell hx')
  have hevaluate : (fresh engine).evaluate cell = _ := hreply
  have hevaluate' : (fresh engine').evaluate cell = _ := hreply'
  rw [hevaluate] at h
  rw [hevaluate', ← h]
  have hattains : engine.Attains n (.inquiry engine.settings.maxDepth [] none (.ask x .done))
      (.ok v) := by
    refine ⟨?_, by simp [Task.chain]⟩
    simp only [outcome, Inquiry.evaluate_ask, hplain, Inquiry.evaluate_done]
  have hasked : ∀ y ∈ Inquiry.asked (engine.plain n) (.ask x Inquiry.done), stays y := by
    simp [Inquiry.asked, hplain, hstays]
  have hfollows : Runs.Follows engine engine' n stays good spare stable
      (.inquiry engine.settings.maxDepth [] none (.ask x .done))
      (.inquiry engine'.settings.maxDepth [] none (.ask x .done)) := by
    rw [hsettings]
    have hpadded : Inquiry.Padded good spare stable Eq (.ask x .done) (.ask x .done) :=
      .ask hgood fun v => .done rfl
    exact .inquiry (by simp) hpadded (by simp [Inquiry.readings, hplain]) hasked
  refine (hruns.carried hcarries hu hu' (by rw [hsettings]) hruns' hfollows hfresh.faithful
    hfresh'.faithful ?_ hattains ?_).1
  · rintro y ⟨v, hv⟩
    simp [fresh] at hv
  · intro hdeep
    cases h.symm.trans hdeep

/-- After a cell came to a value, what the value needs is recorded. -/
theorem Reliable.recordsNeeds {engine : Engine} (hregistry : engine.registry = .builtins)
    (hcircle : ∀ cell, engine.CircleFree cell) {ev ev' : Evaluator} (hev : ev.Reliable)
    (hengine : ev.toEngine = engine) {cell x : CellAddress}
    (hx : engine.source.canonical cell = .ok x) {v : Value}
    (hevaluate : ev.evaluate cell = (.ok v, ev')) :
    engine.RecordsNeeds ev'.memory x ∧ ∃ n, engine.plain n x = some (.ok v) := by
  subst hengine
  have hu : ev.Uniform := uniform hregistry
  obtain ⟨_, s, m', log, hreply, hruns, -, -⟩ :=
    reply_runs hev.formulas (Query.inquiry_cell hx)
  obtain ⟨n, r, hattains⟩ := exists_attains hregistry hcircle ev.settings.maxDepth (.ask x .done)
  obtain ⟨hs, rfl⟩ := Prod.mk.inj (hreply.symm.trans hevaluate)
  obtain ⟨-, rfl | ⟨hdeep, -⟩, -⟩ := hruns.attains hu hev.faithful hattains
  · subst hs
    have hplain : ev.plain n x = some (.ok v) := by
      obtain ⟨failure, hr, -⟩ | ⟨w, hw, hout, -⟩ := hattains.ask
      · cases hr
      · cases hout
        exact hw.1
    refine ⟨fun y hy hformula => ?_, n, hplain⟩
    have htask : ev.TaskNeeds n y (.inquiry ev.settings.maxDepth [] none (.ask x .done)) :=
      ⟨x, Inquiry.mem_asked_ask x .done, hy⟩
    exact (hruns.needs_recorded hu hev.faithful hattains rfl htask hformula).1
  · cases hs.symm.trans hdeep

/-- **A value depends on what it is recorded to depend on.** Take any queries on a workbook without
circles, a cell that comes to a value after them, and a write of another cell that it is not
recorded to depend on. As long as the whole columns and rows read as tables for the value keep
their shape, and the written cell is read in no other spelling, a fresh evaluator gives the cell
the same value before and after the write. -/
theorem value_independent (hbook : book.Built)
    (hcircle : ∀ cell, CircleFree { source := { workbook := book }, settings } cell)
    (queries : List Query) {cell target x a : CellAddress} {v : Value} {ev ev' : Evaluator}
    (hevaluate : ((fresh { source := { workbook := book }, settings }).queried queries).evaluate
      cell = (.ok v, ev))
    (hwrites : ev.Writes target ev')
    (hx : ev.source.canonical cell = .ok x) (ha : ev.source.canonical target = .ok a)
    (hne : x ≠ a) (hindependent : x ∉ ev.memory.dependencies.dependents a)
    (hsteady : ev.Steady ev'.toEngine a x) :
    (∀ w, ((fresh ev.toEngine).evaluate cell).1 = .ok w →
      ((fresh ev'.toEngine).evaluate cell).1 = .ok w) ∧
    ∃ least, ∀ depth, least ≤ depth →
      ((fresh (ev.toEngine.nesting depth)).evaluate cell).1 = .ok v ∧
      ((fresh (ev'.toEngine.nesting depth)).evaluate cell).1 = .ok v := by
  generalize hengine : ({ source := { workbook := book }, settings } : Engine) = engine at *
  have hregistry : engine.registry = .builtins := hengine ▸ rfl
  have hstored : engine.source.asAsked = false := hengine ▸ rfl
  have hwell : engine.source.workbook.WellFormed := hengine ▸ hbook.wellFormed
  have hnames : engine.source.NamesProper :=
    hengine ▸ Source.namesProper_of_wellFormed hbook.wellFormed
  obtain ⟨hqueried, hsame⟩ := reliable_queried hregistry hcircle queries
  -- the evaluation is one more query, so it leaves the workbook and a record of what it read
  have hev : (fresh engine).queried (queries ++ [Query.cell cell]) = ev := by
    rw [queried, List.map_append, after_append]
    exact congrArg Prod.snd hevaluate
  have hsame' := toEngine_queried (fresh engine) (queries ++ [Query.cell cell])
  have hrecorded := (recordedBy_fresh engine).after
    ((queries ++ [Query.cell cell]).map Operation.ask)
  rw [← queried, hev] at hrecorded
  rw [hev] at hsame'
  clear hev hengine
  subst hsame'
  obtain ⟨hneeds, n, hplain⟩ := hqueried.recordsNeeds hregistry hcircle hsame hx hevaluate
  obtain ⟨a', content, book', formulas, ha', hwrite, rfl⟩ := hwrites.eq hrecorded.formulas
  obtain rfl := Except.ok.inj (ha'.symm.trans ha)
  rw [Memory.mem_dependents hrecorded.mirrored] at hindependent
  have hself : ¬ ev.source.SameCell a' x := fun h =>
    hne (h.eq (Source.canonical_spells ha) (Source.canonical_spells hx)).symm
  have hcarries := hsteady.carries hregistry hnames hneeds hplain hindependent rfl hstored hwell
    hwrite hself
  have hx' : (ev.rewritten book').source.canonical cell = .ok x :=
    (congrFun (Source.canonical_write hwrite) cell).trans hx
  have hregistry' : (ev.rewritten book').registry = .builtins := hregistry
  have hplain' : (ev.rewritten book').plain n x = some (.ok v) := hcarries.plain .refl hplain
  refine ⟨fun w => ?_, n, fun depth hdepth => ⟨?_, ?_⟩⟩
  · exact evaluate_carried hcarries (uniform hregistry) (uniform hregistry') rfl hx hx' .refl
      trivial hplain
  · exact evaluate_nesting hregistry hx hplain hdepth
  · exact evaluate_nesting hregistry' hx' hplain' hdepth

/-- A cell beside the column of the value, in the rows that are in use. -/
def besidePair : CellAddress := ⟨"Sheet1", 1, 3⟩

set_option maxRecDepth 4000 in
theorem writtenPair_beside :
    (((fresh (.pair true "A:A")).evaluate pairFormula).1,
      (computedPair "A:A").memory.dependencies.dependents besidePair,
      (writtenPair "A:A" besidePair).1) =
    (.ok (.table (.single (.bool true))), [], .ok ()) := by
  decide +kernel

theorem workbook_writtenPair :
    (writtenPair "A:A" besidePair).2.source.workbook =
      { sheets := [(pairSheet true "A:A").put 1 3 (.ofValue (.bool false))] } := by
  have hsource : (computedPair "A:A").source = { workbook := .pair true "A:A" } :=
    congrArg Engine.source (toEngine_reply _ _)
  have hcell : (computedPair "A:A").source.canonical besidePair = .ok besidePair := by
    rw [hsource]
    rfl
  have hwrite : (computedPair "A:A").source.workbook.write besidePair (.ofValue (.bool false)) =
      .ok { sheets := [(pairSheet true "A:A").put 1 3 (.ofValue (.bool false))] } := by
    rw [hsource]
    rfl
  exact congrArg (·.2.source.workbook) (write_of_ok hcell hwrite)

theorem value_independent_pair :
    ∃ ev, (computedPair "A:A").Writes besidePair ev ∧
      pairFormula ∉ (computedPair "A:A").memory.dependencies.dependents besidePair ∧
      ∃ least, ∀ depth, least ≤ depth →
        ((fresh ((computedPair "A:A").toEngine.nesting depth)).evaluate pairFormula).1 =
          .ok (.table (.single (.bool true))) ∧
        ((fresh (ev.toEngine.nesting depth)).evaluate pairFormula).1 =
          .ok (.table (.single (.bool true))) := by
  obtain ⟨hvalue, h⟩ := Prod.mk.inj writtenPair_beside
  obtain ⟨hdependents, hwrite⟩ := Prod.mk.inj h
  have hwrites : (computedPair "A:A").Writes besidePair (writtenPair "A:A" besidePair).2 :=
    .value (Prod.ext hwrite rfl)
  have hindependent : pairFormula ∉
      (computedPair "A:A").memory.dependencies.dependents besidePair := by
    rw [hdependents]
    exact List.not_mem_nil
  have hrows (sheet : String) : ((writtenPair "A:A" besidePair).2.source.extent sheet).1 =
      ((computedPair "A:A").source.extent sheet).1 := by
    change (((Workbook.extent? _ sheet).getD (0, 0)).1 =
      ((Workbook.extent? (.pair true "A:A") sheet).getD (0, 0)).1)
    rw [workbook_writtenPair]
    unfold Workbook.extent? Workbook.sheet? Workbook.pair
    simp only [List.find?_singleton, pairSheet, Sheet.put_name]
    cases Text.equalIgnoringCase "Sheet1" sheet <;> rfl
  have hsteady : (computedPair "A:A").Steady (writtenPair "A:A" besidePair).2.toEngine besidePair
      pairFormula := steady_firstColumn rfl rfl hrows (by decide)
  refine ⟨_, hwrites, hindependent, ?_⟩
  exact (value_independent (Workbook.built_pair true "A:A")
    (circleFree_firstColumn rfl rfl) [] (Prod.ext hvalue rfl) hwrites rfl rfl (by decide)
    hindependent hsteady).2

/-- A cell below the rows that are in use. -/
def belowPair : CellAddress := ⟨"Sheet1", 10, 3⟩

set_option maxRecDepth 4000 in
theorem writtenPair_below :
    (((fresh (.pair true "A:A")).evaluate pairFormula).1,
      (computedPair "A:A").memory.dependencies.dependents belowPair,
      (writtenPair "A:A" belowPair).1,
      ((fresh (writtenPair "A:A" belowPair).2.toEngine).evaluate pairFormula).1) =
    (.ok (.table (.single (.bool true))), [], .ok (),
      .ok (.table ⟨10, 1, #[.bool true, .blank, .blank, .blank, .blank, .blank, .blank, .blank,
        .blank, .blank]⟩)) := by
  decide +kernel

/-- A write of a cell that is not recorded makes a table of a whole column longer. -/
theorem changed_below :
    (∀ cell, (Engine.pair true "A:A").CircleFree cell) ∧
    ((fresh (.pair true "A:A")).evaluate pairFormula).1 =
      .ok (.table (.single (.bool true))) ∧
    ∃ ev, (computedPair "A:A").Writes belowPair ev ∧
      pairFormula ∉ (computedPair "A:A").memory.dependencies.dependents belowPair ∧
      ((fresh ev.toEngine).evaluate pairFormula).1 ≠
        ((fresh (.pair true "A:A")).evaluate pairFormula).1 := by
  obtain ⟨hvalue, h⟩ := Prod.mk.inj writtenPair_below
  obtain ⟨hdependents, h⟩ := Prod.mk.inj h
  obtain ⟨hwrite, hchanged⟩ := Prod.mk.inj h
  have hwrites : (computedPair "A:A").Writes belowPair (writtenPair "A:A" belowPair).2 :=
    .value (Prod.ext hwrite rfl)
  refine ⟨circleFree_firstColumn rfl rfl, hvalue, _, hwrites, ?_, ?_⟩
  · rw [hdependents]
    exact List.not_mem_nil
  · rw [hvalue, hchanged]
    intro hsame
    cases hsame

end Evaluator

end Spreadsheet
