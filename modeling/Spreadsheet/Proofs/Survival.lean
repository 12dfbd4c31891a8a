-- SUMMARY: Remembered values survive the writes of cells they were not computed from.
import Spreadsheet.Proofs.Invalidation
import Spreadsheet.Proofs.Needs
import Spreadsheet.Proofs.Queries

/-!
# Values that survive writes

A write leaves remembered what is not recorded to depend on the written cell. Where no
circle is met, sheets are spelled as stored and whole columns and rows are not read as
tables, these values are still what their formulas compute, so an evaluator never falls
behind its workbook.
-/

namespace Spreadsheet

/-- On a sheet spelled as stored, an area that does not hold the written cell holds it in no other
spelling. -/
theorem Source.apart_of_not_contains {source : Source} {a : CellAddress} {area : Area}
    (ha : source.Spells a.sheet) (harea : source.Spells area.sheet) (hnot : ¬ area.contains a) :
    ∀ c, area.contains c → ¬ source.SameCell a c := by
  intro c hc hsame
  have hspells : source.Spells c.sheet := (Area.contains_iff.mp hc).1 ▸ harea
  exact hnot (hsame.eq ha hspells ▸ hc)

/-- Tables of blocks of cells are not cut. -/
theorem Source.keepsCut_of_cells {source source' : Source} {reading : Reading}
    (htable : ∀ area, reading = .table area → area.kind = .cells) :
    source.KeepsCut source' reading := by
  cases reading with
  | cell c => trivial
  | used area => trivial
  | table area => exact .inl (by simp only [Area.clip, htable area rfl])

namespace Engine

variable {engine : Engine} {a c : CellAddress} {book' : Workbook} {content : CellContent}

/-- The engine with another workbook. -/
def rewritten (engine : Engine) (book' : Workbook) : Engine :=
  { engine with source := { engine.source with workbook := book' } }

theorem holding_congr {engine engine' : Engine} (hregistry : engine'.registry = engine.registry)
    (hread : engine'.source.workbook.read c = engine.source.workbook.read c) :
    engine'.holding c = engine.holding c := by
  unfold holding
  rw [hread, hregistry]

/-- A write carries over the cells that stay, as long as what they read overlooks it. -/
theorem Carries.of_write (hregistry : engine.registry = .builtins)
    (hstored : engine.source.asAsked = false) (hbook : engine.source.workbook.WellFormed)
    (h : engine.source.workbook.write a content = .ok book')
    {ok : Area → Prop} {stays good : CellAddress → Prop} {stable : Reading → Prop}
    (hkeeps : ∀ c depth, Site.Keeps ⟨engine.source, c, depth⟩ ok)
    (hproper : ∀ area, ok area → area.Proper)
    (hgood : ∀ area, ok area → ∀ c : CellAddress, c.sheet = area.sheet → good c)
    (hstable : ∀ reading, ok reading.region → stable reading →
      engine.source.Overlooks (engine.rewritten book').source a reading)
    (hstays : ∀ c, stays c → ¬ engine.source.SameCell a c)
    (hwrites : ∀ c, stays c → ∀ e, engine.holding c = .formula e → ∀ depth, ∀ node ∈ e.nodes,
      Site.Writes ⟨engine.source, c, depth⟩ ok node)
    (hreads : ∀ c, stays c → ∀ r readings asked, engine.Computes c r readings asked →
      (∀ reading ∈ readings, stable reading) ∧ ∀ y ∈ asked, stays y) :
    Carries engine (engine.rewritten book') stays good
      (engine.source.Added (engine.rewritten book').source a) stable := by
  have hholding (c : CellAddress) (hc : stays c) :
      (engine.rewritten book').holding c = engine.holding c :=
    holding_congr rfl (Source.read_write h hstored (hstays c hc))
  refine ⟨fun c hc r hr => ?_, fun c hc e he => ⟨?_, ?_⟩, hreads, fun c hc => ?_⟩
  · rw [hholding c hc, hr]
  · rw [hholding c hc, he]
  · have hplace : Site.SamePlace ⟨engine.source, c, 1⟩ ⟨(engine.rewritten book').source, c, 1⟩ :=
      ⟨rfl, Source.sheetName?_write h, Source.nameTarget?_write h⟩
    exact Formula.Expr.padded_value (regular hregistry) hplace (Source.extends_write h)
      (hkeeps c 1) hproper hgood hstable (hwrites c hc e he 1)
  · have hread := Source.read_added h hstored hbook hc
    unfold holding rewritten
    simp only [hread]

/-! ## Workbooks that can be followed -/

/-- No circle is met from any cell of the workbook, sheets are named in formulas as they are stored,
and whole columns and rows are not read as tables. -/
structure Followable (engine : Engine) : Prop where
  circleFree : ∀ c, engine.source.canonical c = .ok c → engine.CircleFree c
  spelled : ∀ c e, engine.source.canonical c = .ok c → engine.holding c = .formula e →
    e.SpelledFor engine.source
  tables : ∀ c, engine.source.canonical c = .ok c → ∀ depth x v readings asked,
    .computed x v readings asked ∈ engine.events depth [] c {} →
      ∀ area, .table area ∈ readings → area.kind = .cells

/-- Formulas of cells spelled as stored ask for such cells only. -/
theorem Computes.spells (hregistry : engine.registry = .builtins)
    (hnames : engine.source.NamesInGrid) (hfollow : engine.Followable)
    (hspells : engine.source.Spells c.sheet) {r : Except Failure Value} {readings : List Reading}
    {asked : List CellAddress} (h : engine.Computes c r readings asked) :
    ∀ y ∈ asked, engine.source.Spells y.sheet := by
  obtain ⟨e, n, he, -, -, rfl⟩ := h
  obtain ⟨text, htext⟩ := readFormula_of_holding he
  have hmeets : (engine.inquiry [] c e).Meets (.ofSheets engine.source.Spells) fun _ => True :=
    meets_ofSheets hregistry hnames (fun _ h => h) hspells htext
      (hfollow.spelled c e (canonical_of_holding hspells he) he)
  exact fun y hy => (hmeets.asksOnly fun _ _ => trivial).of_mem_asked hy

/-- A workbook of two cells, the second a copy of the first. -/
theorem followable_firstCell (hregistry : engine.registry = .builtins)
    (hbook : engine.source.workbook = .pair b "A1") : engine.Followable where
  circleFree c _ := circleFree_firstCell hregistry hbook c
  spelled c e _ he node hnode name hname := by
    obtain ⟨-, -, rfl⟩ := holding_pair hbook (hregistry ▸ readFormula_firstCell) he
    obtain rfl : node = firstCell := by simpa [firstCell, Formula.Expr.nodes] using hnode
    cases hname
  tables c _ depth x v readings asked hevent area harea := by
    obtain ⟨e, n, he, -, rfl, -⟩ := (circleFree_firstCell hregistry hbook c).computes_of_event
      (uniform hregistry) hevent
    obtain ⟨-, -, rfl⟩ := holding_pair hbook (hregistry ▸ readFormula_firstCell) he
    rw [inquiry_firstCell] at harea
    have hcell := Site.eq_of_mem_readings harea
    rw [if_pos (by simp [Area.isSingleCell, Area.ofCell])] at hcell
    cases hcell

end Engine

namespace Evaluator

open Engine

variable {ev ev' : Evaluator} {op : Operation} {events : List Event}

/-- What the evaluator remembers is what its formulas compute now, and is spelled as stored. -/
structure UpToDate (ev : Evaluator) : Prop extends ev.Reliable where
  mirrored : ev.memory.dependencies.Mirrored
  spelled : ∀ x, ev.memory.Remembers x → ev.source.Spells x.sheet
  registry : ev.registry = .builtins
  stored : ev.source.asAsked = false
  names : ev.source.NamesInGrid
  book : ev.source.workbook.WellFormed

theorem UpToDate.settles (hev : ev.UpToDate) (hfollow : ev.Followable) {query : Query}
    (hspelled : query.SpelledFor ev.toEngine) : query.Settles ev.toEngine :=
  hspelled.settles hev.registry hev.names hfollow.circleFree

/-- A query adds values that its formulas compute. -/
theorem UpToDate.answered (hev : ev.UpToDate) (hfollow : ev.Followable) {query : Query}
    (hspelled : query.SpelledFor ev.toEngine) {q : Inquiry Value}
    (hq : query.inquiry ev.toEngine = .ok q) {depth : Nat} {s : Except Failure Value}
    {m m' : Memory} {log : Log} (hruns : Runs ev.toEngine (.inquiry depth [] none q) m s m' log)
    (hm : ev.Faithful m) (hvalues : m.values = ev.memory.values) :
    ev.Faithful m' ∧ ∀ x, m'.Remembers x → ev.source.Spells x.sheet := by
  have hu := uniform hev.registry
  obtain ⟨n, r, hr⟩ := (hev.settles hfollow hspelled).attains hq depth
  have hmeets := Query.meets_ofSheets hev.registry hev.names (fun _ h => h) hspelled hq
  refine ⟨(hruns.attains hu hm hr).1, fun x hx => ?_⟩
  have hclosed : ev.Closed fun c => ev.source.Spells c.sheet :=
    fun c hc r readings asked hcomputes y hy _ =>
      hcomputes.spells hev.registry hev.names hfollow hc y hy
  have hwithin : ev.Within n (fun c => ev.source.Spells c.sheet) (.inquiry depth [] none q) :=
    fun y hy _ => (hmeets.asksOnly fun _ _ => trivial).of_mem_asked hy
  obtain ⟨v, hv⟩ | hx := hruns.remembers_within hu hm hr hclosed hwithin hx
  · exact hev.spelled x ⟨v, hvalues ▸ hv⟩
  · exact hx

/-- What a write leaves remembered is carried over to the new workbook. -/
theorem UpToDate.carries (hev : ev.UpToDate) (hfollow : ev.Followable) {a : CellAddress}
    {content : CellContent} {book' : Workbook} (ha : ev.source.Spells a.sheet)
    (hbook : ev.source.workbook.write a content = .ok book') :
    Carries ev.toEngine (ev.rewritten book')
      (fun c => c ≠ a ∧ ev.source.Spells c.sheet ∧
        (ev.IsFormula c → (ev.memory.invalidate a).Remembers c))
      (fun c => ev.source.Spells c.sheet)
      (ev.source.Added (ev.rewritten book').source a)
      (fun reading => ¬ reading.region.contains a ∧
        ev.source.KeepsCut (ev.rewritten book').source reading) := by
  have hkeeps (c : CellAddress) (depth : Nat) :
      Site.Keeps ⟨ev.source, c, depth⟩ (Site.Spelled ev.source) :=
    Site.keeps_spelled hev.names.proper
  refine .of_write hev.registry hev.stored hev.book hbook hkeeps (fun area h => h.1)
    (fun area h c hc => hc ▸ h.2) ?_ ?_ ?_ ?_
  · exact fun reading h hstable =>
      ⟨Source.apart_of_not_contains ha h.2 hstable.1, hstable.2⟩
  · rintro c ⟨hne, hspells, -⟩ hsame
    exact hne (hsame.eq ha hspells).symm
  · rintro c ⟨-, hspells, -⟩ e he depth
    exact Formula.Expr.writes_spelled (proper_of_holding he)
      (hfollow.spelled c e (canonical_of_holding hspells he) he) hspells
  · rintro c ⟨-, hspells, hremembers⟩ r readings asked hcomputes
    obtain ⟨e, _, he, -⟩ := id hcomputes
    -- a remembered cell that is left does not read the written one, however far down
    obtain ⟨⟨v, hv⟩, hne, hnot⟩ :=
      (Memory.remembers_invalidate hev.mirrored).mp (hremembers ⟨e, he⟩)
    obtain ⟨readings', asked', hcomputes', hrecorded, hasked⟩ := hev.faithful c v hv
    obtain ⟨rfl, rfl, rfl⟩ := hcomputes.unique hcomputes'
    constructor
    · intro reading hreading
      refine ⟨fun hcontains => hnot (.single ?_), Source.keepsCut_of_cells ?_⟩
      · exact ⟨reading.precedent, hrecorded reading hreading, hcontains⟩
      · rintro area rfl
        obtain ⟨n, hplain⟩ := hcomputes.plain
        obtain ⟨depth, w, hevent⟩ :=
          Needs.event (uniform hev.registry) .refl ⟨e, he⟩ hplain hcomputes
        exact hfollow.tables c (canonical_of_holding hspells he) depth c w readings asked hevent
          area hreading
    · intro y hy
      obtain ⟨reading, hreading, hcontains⟩ := hcomputes.announced hev.registry hev.names.proper hy
      have hreads : ev.memory.Reads c y :=
        ⟨reading.precedent, hrecorded reading hreading, hcontains⟩
      refine ⟨?_, hcomputes.spells hev.registry hev.names hfollow hspells y hy, fun hformula => ?_⟩
      · rintro rfl
        exact hnot (.single hreads)
      · refine (Memory.remembers_invalidate hev.mirrored).mpr ⟨hasked y hy hformula, ?_, ?_⟩
        · rintro rfl
          exact hnot (.single hreads)
        · exact fun hdependent => hnot (.head hreads hdependent)

theorem UpToDate.faithful_invalidate (hev : ev.UpToDate) (hfollow : ev.Followable)
    {a : CellAddress} {content : CellContent} {book' : Workbook} (ha : ev.source.Spells a.sheet)
    (hbook : ev.source.workbook.write a content = .ok book') :
    (ev.rewritten book').Faithful (ev.memory.invalidate a) := by
  have hcarries := hev.carries hfollow ha hbook
  intro x v hx
  have hremembers : (ev.memory.invalidate a).Remembers x := ⟨v, hx⟩
  obtain ⟨hx, hne, -⟩ := (Memory.values_invalidate hev.mirrored).mp hx
  obtain ⟨readings, asked, hcomputes, hrecorded, -⟩ := hev.faithful x v hx
  have hstays : x ≠ a ∧ ev.source.Spells x.sheet ∧
      (ev.IsFormula x → (ev.memory.invalidate a).Remembers x) :=
    ⟨hne, hev.spelled x ⟨v, hx⟩, fun _ => hremembers⟩
  obtain ⟨asked', hcomputes', -, hback⟩ := hcarries.computes hstays hcomputes
  refine ⟨readings, asked', hcomputes', fun r hr => ?_, fun y hy hformula => ?_⟩
  · exact Memory.mem_precedents_invalidate.mpr ⟨Ne.symm hne, hrecorded r hr⟩
  · obtain hy | hspare := hback y hy
    · have hy' := (hcarries.reads x hstays _ _ _ hcomputes).2 y hy
      exact hy'.2.2 ((hcarries.isFormula hy').mpr hformula)
    · -- a cell that the second engine asks for besides is blank, so it is no formula
      obtain ⟨e, he⟩ := hformula
      rw [hcarries.blank y hspare] at he
      cases he

/-- No operation makes the evaluator fall behind. -/
theorem UpToDate.step (hev : ev.UpToDate) (hfollow : ev.Followable)
    (hspelled : ∀ query, op = .ask query → query.SpelledFor ev.toEngine)
    (h : ev.Step op events ev') (hread : ev'.FormulasRead ev'.memory) : ev'.UpToDate := by
  cases h with
  | idle => exact { hev with formulas := hread }
  | answered hq hruns =>
      obtain ⟨hfaithful, hspells⟩ :=
        hev.answered hfollow (hspelled _ rfl) hq hruns hev.faithful rfl
      exact { hev with
        formulas := hread
        faithful := hfaithful
        mirrored := hruns.mirrored hev.mirrored
        spelled := hspells }
  | @written _ cell a content book' formulas ha hbook _ =>
      have haspells := Source.canonical_spells ha
      have hnames := Source.sheetName?_write hbook
      have htargets := Source.nameTarget?_write hbook
      refine ⟨⟨hread, hev.faithful_invalidate hfollow haspells hbook⟩,
        Memory.mirrored_invalidate hev.mirrored, ?_, hev.registry, hev.stored, ?_,
        hev.book.write hbook⟩
      · rintro x ⟨v, hx⟩
        obtain ⟨hx, -, -⟩ := (Memory.values_invalidate hev.mirrored).mp hx
        exact (congrFun hnames x.sheet).trans (hev.spelled x ⟨v, hx⟩)
      · intro word area harea
        exact hev.names word area ((congrFun htargets word).symm.trans harea)
  | forgotten =>
      exact { hev with
        formulas := hread
        faithful := faithful_of_values_empty fun x => by simp [forgetValues]
        mirrored := Dependencies.mirrored_empty
        spelled := fun x ⟨v, hv⟩ => by simp [forgetValues] at hv }

/-! ## Runs -/

theorem UpToDate.after (hev : ev.UpToDate) (ops : List Operation)
    (hfollow : ∀ before, before <+: ops → (ev.after before).Followable)
    (hspelled : ∀ query, .ask query ∈ ops → query.SpelledFor ev.toEngine) :
    (ev.after ops).UpToDate := by
  refine after_induction ops hev.formulas hev fun before op events ev' hbefore h => h.step ?_ ?_
  · exact hfollow before ((List.prefix_append _ _).trans hbefore)
  · rintro query rfl
    have hquery := hspelled query (hbefore.subset (List.mem_append_right _ List.mem_cons_self))
    exact hquery.congr (registry_after hev.formulas before) (sheetName?_after hev.formulas before)

theorem upToDate_fresh {book : Workbook} (hbook : book.Built) (settings : Settings) :
    (fresh { source := { workbook := book }, settings }).UpToDate where
  toReliable := reliable_fresh _
  mirrored := Dependencies.mirrored_empty
  spelled x hx := by
    obtain ⟨v, hv⟩ := hx
    simp [fresh] at hv
  registry := rfl
  stored := rfl
  names := Source.namesInGrid_of_wellFormed hbook.wellFormed
  book := hbook.wellFormed

/-- A fresh evaluator that may nest formulas deep enough computes every remembered value. -/
theorem UpToDate.fresh_of_remembered (hev : ev.UpToDate) {x : CellAddress} {v : Value}
    (hx : ev.memory.values[x]? = some v) :
    ∃ least, ∀ depth, least ≤ depth →
      ((fresh (ev.toEngine.nesting depth)).evaluate x).1 = .ok v := by
  obtain ⟨n, hn⟩ := hev.faithful.plain hx
  obtain ⟨e, he⟩ := hev.faithful.isFormula ⟨v, hx⟩
  have hcanonical := canonical_of_holding (hev.spelled x ⟨v, hx⟩) he
  exact ⟨n, fun depth hdepth => evaluate_nesting hev.registry hcanonical hn hdepth⟩

/-- **Remembered values survive writes.** Take any operations on a fresh evaluator such that, in
every state of the workbook on the way, no circle is met, sheets are named in formulas as they are
stored, and whole columns and rows are not read as tables. At every point, the evaluator gives each
value that a fresh one gives for the workbook as it is then, and all it remembers is what a fresh
one computes that may nest formulas deep enough. -/
theorem evaluate_as_fresh {book : Workbook} (hbook : book.Built) (settings : Settings)
    (ops : List Operation)
    (hfollow : ∀ before, before <+: ops →
      ((fresh { source := { workbook := book }, settings }).after before).Followable)
    (hspelled : ∀ query, .ask query ∈ ops →
      query.SpelledFor { source := { workbook := book }, settings }) :
    ∀ before, before <+: ops →
      let ev := (fresh { source := { workbook := book }, settings }).after before
      (∀ cell v, ((fresh ev.toEngine).evaluate cell).1 = .ok v → (ev.evaluate cell).1 = .ok v) ∧
      ∀ x v, ev.memory.values[x]? = some v → ∃ least, ∀ depth, least ≤ depth →
        ((fresh (ev.toEngine.nesting depth)).evaluate x).1 = .ok v := by
  intro before hbefore ev
  have hev : ev.UpToDate := (upToDate_fresh hbook settings).after before
    (fun before' h => hfollow before' (h.trans hbefore))
    (fun query hquery => hspelled query (hbefore.subset hquery))
  refine ⟨fun cell v hv => ?_, fun x v hx => hev.fresh_of_remembered hx⟩
  have hquery : Query.SpelledFor ev.toEngine (.cell cell) := trivial
  have heq : (ev.reply (.cell cell)).1 = ((fresh ev.toEngine).reply (.cell cell)).1 := by
    refine reply_eq_fresh (uniform hev.registry) hev.toReliable
      (hev.settles (hfollow before hbefore) hquery) ?_
    intro hdeep
    have hv : ((fresh ev.toEngine).reply (.cell cell)).1 = .ok v := hv
    rw [hv] at hdeep
    cases hdeep
  exact heq.trans hv

set_option maxRecDepth 8000 in
theorem evaluate_as_fresh_pair :
    let engine : Engine := { source := { workbook := .pair true "A1" } }
    let first : CellAddress := ⟨"Sheet1", 1, 1⟩
    let second : CellAddress := ⟨"Sheet1", 1, 2⟩
    let ops : List Operation :=
      [.ask (.cell second), .setValue first (.bool false), .ask (.cell second)]
    let ev := (fresh engine).after ops
    (ev.evaluate second).1 = .ok (.scalar (.bool false)) ∧
      ∃ least, ∀ depth, least ≤ depth →
        ((fresh (ev.toEngine.nesting depth)).evaluate second).1 = .ok (.scalar (.bool false)) := by
  intro engine first second ops ev
  have hfollow (before : List Operation) (hbefore : before <+: ops) :
      ((fresh engine).after before).Followable := by
    simp only [ops, List.prefix_cons_iff, List.prefix_nil] at hbefore
    obtain rfl | ⟨_, rfl, rfl | ⟨_, rfl, rfl | ⟨_, rfl, rfl⟩⟩⟩ := hbefore
    · exact followable_firstCell rfl rfl
    · exact followable_firstCell rfl rfl
    · exact followable_firstCell rfl rfl
    · exact followable_firstCell rfl rfl
  have hspelled (query : Query) (hquery : .ask query ∈ ops) : query.SpelledFor engine := by
    simp [ops] at hquery
    obtain rfl := hquery
    trivial
  obtain ⟨hvalue, hremembered⟩ :=
    evaluate_as_fresh (Workbook.built_pair true "A1") {} ops hfollow hspelled ops List.prefix_rfl
  refine ⟨hvalue second _ ?_, hremembered second _ ?_⟩
  · decide +kernel
  · decide +kernel

end Evaluator

end Spreadsheet
