-- SUMMARY: Where no circle is met, queries do not disturb one another.
import Spreadsheet.Proofs.Contracts

/-!
# Queries in any order

What earlier queries left in the memory changes which formulas are computed again, and how
deep they are nested then. It does not change the reply to a query that comes to something
when every cell has its plain value, unless the query on its own is nested too deep. Where no
circle is met from any cell of the workbook, so do all queries that name sheets as stored.
-/

namespace Spreadsheet

open Engine

/-- The engine with another bound on how many formulas it nests. -/
def Engine.nesting (engine : Engine) (depth : Nat) : Engine :=
  { engine with settings := { engine.settings with maxDepth := depth } }

/-! ## What queries ask for -/

theorem Engine.canonical_of_holding {engine : Engine} {c : CellAddress} {e : Formula.Expr}
    (hspells : engine.source.Spells c.sheet) (h : engine.holding c = .formula e) :
    engine.source.canonical c = .ok c :=
  have ⟨_, hread⟩ := read_of_holding h
  Source.canonical_self hread hspells

/-- If no circle is met from the cells of the workbook, those on sheets spelled as stored have plain
values. -/
theorem Engine.exists_plain_of_spells {engine : Engine} {c : CellAddress} (hu : engine.Uniform)
    (hcircle : ∀ cell, engine.source.canonical cell = .ok cell → engine.CircleFree cell)
    (hspells : engine.source.Spells c.sheet) : ∃ n r, engine.plain n c = some r := by
  cases hc : engine.holding c with
  | result r => exact ⟨0, r, plain_of_result hc 0⟩
  | formula e => exact exists_plain hu (hcircle c (canonical_of_holding hspells hc))

/-- Where no circle is met in any spelling, whatever is inquired has a plain result. -/
theorem Engine.exists_attains {engine : Engine} (hregistry : engine.registry = .builtins)
    (hcircle : ∀ cell, engine.CircleFree cell) (depth : Nat) (q : Inquiry Value) :
    ∃ n r, engine.Attains n (.inquiry depth [] none q) r := by
  obtain ⟨n, r, hr⟩ := exists_evaluate (asksOnly_true q)
    fun c _ => exists_plain (uniform hregistry) (hcircle c)
  exact ⟨n, r, hr, by simp [Task.chain]⟩

namespace Query

variable {engine engine' : Engine} {known : String → Prop} {query : Query}

/-- The sheets that a query names in its formula are among the known ones, if they exist. -/
def NamesSheets (engine : Engine) (known : String → Prop) : Query → Prop
  | .formula entered _ => ∀ e, engine.registry.readFormula entered = .ok e →
    e.NamesSheets engine.source known
  | _ => True

/-- A formula that is asked for names sheets as they are stored. -/
def SpelledFor (engine : Engine) (query : Query) : Prop :=
  query.NamesSheets engine engine.source.Spells

theorem NamesSheets.congr (h : query.NamesSheets engine known)
    (hregistry : engine'.registry = engine.registry)
    (hsheets : engine'.source.sheetName? = engine.source.sheetName?) :
    query.NamesSheets engine' known := by
  cases query with
  | cell c => trivial
  | area a => trivial
  | formula entered c =>
      intro e he node hnode name hname stored hstored
      rw [hregistry] at he
      rw [hsheets] at hstored
      exact h e he node hnode name hname stored hstored

theorem SpelledFor.congr (h : query.SpelledFor engine)
    (hregistry : engine'.registry = engine.registry)
    (hsheets : engine'.source.sheetName? = engine.source.sheetName?) :
    query.SpelledFor engine' := by
  have hspells : engine'.source.Spells = engine.source.Spells := by
    funext sheet
    unfold Source.Spells
    rw [hsheets]
  unfold SpelledFor
  rw [hspells]
  exact NamesSheets.congr h hregistry hsheets

/-- A query that names known sheets only asks for cells on these and on sheets as stored. -/
theorem meets_ofSheets (hregistry : engine.registry = .builtins)
    (hnames : engine.source.NamesInGrid)
    (hknown : ∀ sheet, engine.source.Spells sheet → known sheet)
    (hsheets : query.NamesSheets engine known) {q : Inquiry Value}
    (hq : query.inquiry engine = .ok q) : q.Meets (.ofSheets known) fun _ => True := by
  cases query with
  | cell c =>
      simp only [inquiry, bind_eq_ok, mapError_eq_ok, pure_eq_ok] at hq
      obtain ⟨c', hc, rfl⟩ := hq
      exact ⟨hknown _ (Source.canonical_spells hc), fun _ _ => trivial⟩
  | area a =>
      simp only [inquiry, bind_eq_ok, mapError_eq_ok, pure_eq_ok] at hq
      obtain ⟨corner, hcorner, rfl⟩ := hq
      have hsheet := hknown _ (Source.canonical_spells hcorner)
      exact Site.meets_readArea (fun r hr => (hr ▸ hsheet : known r.region.sheet))
        fun c hc _ => (hc ▸ hsheet : known c.sheet)
  | formula entered c =>
      simp only [inquiry, bind_eq_ok, mapError_eq_ok, pure_eq_ok] at hq
      obtain ⟨c', hc, e, he, rfl⟩ := hq
      exact Engine.meets_ofSheets hregistry hnames hknown (hknown _ (Source.canonical_spells hc)) he
        (hsheets e he)

/-- What the query inquires comes to something when every cell has its plain value. -/
def Settles (engine : Engine) (query : Query) : Prop :=
  ∀ q, query.inquiry engine = .ok q → ∃ n r, q.evaluate (engine.plain n) = some r

theorem Settles.attains (h : query.Settles engine) {q : Inquiry Value}
    (hq : query.inquiry engine = .ok q) (depth : Nat) :
    ∃ n r, engine.Attains n (.inquiry depth [] none q) r := by
  obtain ⟨n, r, hr⟩ := h q hq
  exact ⟨n, r, hr, by simp [Task.chain]⟩

/-- Where no circle is met in any spelling, every query comes to something. -/
theorem settles_of_circleFree (hregistry : engine.registry = .builtins)
    (hcircle : ∀ cell, engine.CircleFree cell) (query : Query) : query.Settles engine :=
  fun q _ => have ⟨n, r, hr, _⟩ := exists_attains hregistry hcircle 0 q
  ⟨n, r, hr⟩

/-- A query that names sheets as they are stored asks only for cells of the workbook. -/
theorem SpelledFor.settles (hregistry : engine.registry = .builtins)
    (hnames : engine.source.NamesInGrid)
    (hcircle : ∀ cell, engine.source.canonical cell = .ok cell → engine.CircleFree cell)
    (hspelled : query.SpelledFor engine) : query.Settles engine := by
  intro q hq
  have hmeets := meets_ofSheets hregistry hnames (fun _ h => h) hspelled hq
  exact exists_evaluate (hmeets.asksOnly fun _ _ => trivial)
    fun c hc => exists_plain_of_spells (uniform hregistry) hcircle hc

end Query

namespace Evaluator

open Workbook

variable {ev : Evaluator} {engine : Engine}

/-- The replies to some queries, made in order. -/
def replies (ev : Evaluator) : List Query → List (Except Failure Value)
  | [] => []
  | query :: queries => (ev.reply query).1 :: (ev.reply query).2.replies queries

/-- The evaluator after some queries, made in order. -/
def queried (ev : Evaluator) (queries : List Query) : Evaluator := ev.after (queries.map .ask)

/-- The memory of the evaluator is as its engine would compute it. -/
structure Reliable (ev : Evaluator) : Prop where
  formulas : ev.FormulasRead ev.memory
  faithful : ev.Faithful ev.memory

theorem reliable_fresh (engine : Engine) : (fresh engine).Reliable where
  formulas := formulasRead_empty
  faithful := faithful_of_values_empty fun x => by simp [fresh]

/-- From any faithful memory, a query is answered as from an empty one, if it comes to something
and that does not give up. -/
theorem reply_eq_fresh (hu : ev.Uniform) (hev : ev.Reliable) {query : Query}
    (hquery : query.Settles ev.toEngine)
    (hdeep : ((fresh ev.toEngine).reply query).1 ≠ .error (.tooDeep ev.settings.maxDepth)) :
    (ev.reply query).1 = ((fresh ev.toEngine).reply query).1 := by
  have hfresh := reliable_fresh ev.toEngine
  cases hq : query.inquiry ev.toEngine with
  | error failure =>
      obtain ⟨_, hreply, -, -⟩ := reply_error hev.formulas hq
      obtain ⟨_, hreply', -, -⟩ := reply_error hfresh.formulas hq
      rw [hreply, hreply']
  | ok q =>
      obtain ⟨_, s, m', log, hreply, hruns, -, -⟩ := reply_runs hev.formulas hq
      obtain ⟨_, s', M', log', hreply', hruns', -, -⟩ := reply_runs hfresh.formulas hq
      obtain ⟨n, r, hr⟩ := hquery.attains hq ev.settings.maxDepth
      rw [hreply'] at hdeep
      rw [hreply, hreply']
      refine (hruns'.carried (Carries.refl ev.toEngine) hu hu rfl hruns ?_ hfresh.faithful
        hev.faithful ?_ hr hdeep).1
      · exact .inquiry (by simp) (.refl (asksOnly_true q)) (fun _ _ => trivial) fun _ _ => trivial
      · rintro x ⟨v, hv⟩
        simp [fresh] at hv

/-- A value is found afresh where formulas may nest deep enough. -/
theorem evaluate_nesting (hregistry : engine.registry = .builtins) {cell x : CellAddress}
    {n depth : Nat} {v : Value} (hx : engine.source.canonical cell = .ok x)
    (hplain : engine.plain n x = some (.ok v)) (hdepth : n ≤ depth) :
    ((fresh (engine.nesting depth)).evaluate cell).1 = .ok v := by
  have hfresh := reliable_fresh (engine.nesting depth)
  have hq : Query.inquiry (engine.nesting depth) (.cell cell) = .ok (.ask x .done) :=
    Query.inquiry_cell hx
  obtain ⟨_, s, m', log, hreply, hruns, -, -⟩ := reply_runs hfresh.formulas hq
  have hplain' : (engine.nesting depth).plain n x = some (.ok v) :=
    (congrFun (plain_settings engine _ n) x).trans hplain
  have hattains : (engine.nesting depth).Attains n (.inquiry depth [] none (.ask x .done))
      (.ok v) := by
    refine ⟨?_, by simp [Task.chain]⟩
    simp only [outcome, Inquiry.evaluate_ask, hplain', Inquiry.evaluate_done]
  have hu : (engine.nesting depth).Uniform := uniform hregistry
  have hevaluate : (fresh (engine.nesting depth)).evaluate cell = _ := hreply
  rw [hevaluate]
  obtain ⟨-, hs | ⟨-, hlt⟩, -⟩ := hruns.attains hu hfresh.faithful hattains
  · exact hs
  · exact absurd (Nat.lt_of_lt_of_le hlt hdepth) (Nat.lt_irrefl _)

/-! ## Sequences of queries -/

theorem toEngine_queried (ev : Evaluator) (queries : List Query) :
    (ev.queried queries).toEngine = ev.toEngine := by
  induction queries generalizing ev with
  | nil => rfl
  | cons query queries ih => exact (ih _).trans (toEngine_reply ev query)

section

variable (hu : engine.Uniform)
include hu

theorem Reliable.reply (hev : ev.Reliable) (hengine : ev.toEngine = engine) {query : Query}
    (hquery : query.Settles engine) : (ev.reply query).2.Reliable := by
  subst hengine
  cases hq : query.inquiry ev.toEngine with
  | error failure =>
      obtain ⟨formulas, hreply, -, hread⟩ := reply_error hev.formulas hq
      rw [hreply]
      exact ⟨hread, hev.faithful⟩
  | ok q =>
      obtain ⟨formulas, s, m', log, hreply, hruns, -, hread⟩ := reply_runs hev.formulas hq
      obtain ⟨n, r, hr⟩ := hquery.attains hq ev.settings.maxDepth
      rw [hreply]
      exact ⟨hread, (hruns.attains hu hev.faithful hr).1⟩

theorem Reliable.queried (hev : ev.Reliable) (hengine : ev.toEngine = engine)
    {queries : List Query} (hqueries : ∀ query ∈ queries, query.Settles engine) :
    (ev.queried queries).Reliable := by
  induction queries generalizing ev with
  | nil => exact hev
  | cons query queries ih =>
      obtain ⟨hquery, hqueries⟩ := List.forall_mem_cons.mp hqueries
      exact ih (hev.reply hu hengine hquery) ((toEngine_reply ev query).trans hengine) hqueries

theorem Reliable.reply_eq (hev : ev.Reliable) (hengine : ev.toEngine = engine) {query : Query}
    (hquery : query.Settles engine)
    (hdeep : ((fresh engine).reply query).1 ≠ .error (.tooDeep engine.settings.maxDepth)) :
    (ev.reply query).1 = ((fresh engine).reply query).1 := by
  subst hengine
  exact reply_eq_fresh hu hev hquery hdeep

theorem Reliable.replies_eq (hev : ev.Reliable) (hengine : ev.toEngine = engine)
    {queries : List Query} (hqueries : ∀ query ∈ queries, query.Settles engine ∧
      ((fresh engine).reply query).1 ≠ .error (.tooDeep engine.settings.maxDepth)) :
    ev.replies queries = queries.map fun query => ((fresh engine).reply query).1 := by
  induction queries generalizing ev with
  | nil => rfl
  | cons query queries ih =>
      obtain ⟨⟨hquery, hdeep⟩, hqueries⟩ := List.forall_mem_cons.mp hqueries
      rw [replies, hev.reply_eq hu hengine hquery hdeep, List.map_cons,
        ih (hev.reply hu hengine hquery) ((toEngine_reply ev query).trans hengine) hqueries]

end

/-- Where no circle is met in any spelling, queries leave the memory faithful. -/
theorem reliable_queried (hregistry : engine.registry = .builtins)
    (hcircle : ∀ cell, engine.CircleFree cell) (queries : List Query) :
    ((fresh engine).queried queries).Reliable ∧
      ((fresh engine).queried queries).toEngine = engine := by
  refine ⟨(reliable_fresh engine).queried (uniform hregistry) rfl fun query _ => ?_,
    toEngine_queried _ _⟩
  exact Query.settles_of_circleFree hregistry hcircle query

/-- **Queries do not disturb one another.** Where no computation of a cell of the workbook, however
deep it may nest, meets a cell under computation, take queries whose formulas name sheets as they
are stored. One that a fresh evaluator does not give up gets the same reply after any others of
them. So replies do not depend on the order of the queries. -/
theorem reply_independent {book : Workbook} (hbook : book.Built) (settings : Settings) :
    let engine : Engine := { source := { workbook := book }, settings }
    (∀ cell, engine.source.canonical cell = .ok cell → engine.CircleFree cell) →
      (∀ queries query, (∀ asked ∈ query :: queries, asked.SpelledFor engine) →
        ((fresh engine).reply query).1 ≠ .error (.tooDeep settings.maxDepth) →
        (((fresh engine).queried queries).reply query).1 = ((fresh engine).reply query).1) ∧
      ∀ queries, (∀ query ∈ queries, query.SpelledFor engine ∧
          ((fresh engine).reply query).1 ≠ .error (.tooDeep settings.maxDepth)) →
        (fresh engine).replies queries =
          queries.map fun query => ((fresh engine).reply query).1 := by
  intro engine hcircle
  have hu : engine.Uniform := uniform rfl
  have hsettles (query : Query) (hspelled : query.SpelledFor engine) : query.Settles engine :=
    hspelled.settles rfl (Source.namesInGrid_of_wellFormed hbook.wellFormed) hcircle
  constructor
  · intro queries query hspelled hdeep
    obtain ⟨hquery, hqueries⟩ := List.forall_mem_cons.mp hspelled
    have hev : ((fresh engine).queried queries).Reliable := (reliable_fresh engine).queried hu rfl
      fun asked hasked => hsettles asked (hqueries asked hasked)
    exact hev.reply_eq hu (toEngine_queried _ _) (hsettles query hquery) hdeep
  · intro queries hqueries
    exact (reliable_fresh engine).replies_eq hu rfl fun query hquery =>
      (hqueries query hquery).imp_left (hsettles query)

set_option maxRecDepth 4000 in
theorem reply_independent_pair :
    (Workbook.pair true "A1").Built ∧
      (∀ cell, (Engine.pair true "A1").source.canonical cell = .ok cell →
        (Engine.pair true "A1").CircleFree cell) ∧
      (Query.formula "=Sheet1!A1" pairFormula).SpelledFor (.pair true "A1") ∧
      ((fresh (.pair true "A1")).reply (.cell pairFormula)).1 = .ok (.scalar (.bool true)) ∧
      (((fresh (.pair true "A1")).queried [.formula "=Sheet1!A1" pairFormula]).reply
        (.cell pairFormula)).1 = .ok (.scalar (.bool true)) := by
  have hcircle (cell : CellAddress) (_ : (Engine.pair true "A1").source.canonical cell = .ok cell) :
      (Engine.pair true "A1").CircleFree cell := circleFree_firstCell rfl rfl cell
  have hspelled : (Query.formula "=Sheet1!A1" pairFormula).SpelledFor (.pair true "A1") := by
    intro e he node hnode name hname stored hstored
    have hread : Registry.builtins.readFormula "=Sheet1!A1" =
        .ok (.cell (some "Sheet1") { row := 1, col := 1 }) := by decide +kernel
    cases hread.symm.trans he
    obtain rfl : node = .cell (some "Sheet1") { row := 1, col := 1 } := List.mem_singleton.mp hnode
    cases hname
    rfl
  have hreply : ((fresh (.pair true "A1")).reply (.cell pairFormula)).1 =
      .ok (.scalar (.bool true)) := by decide +kernel
  have hdeep : ((fresh (.pair true "A1")).reply (.cell pairFormula)).1 ≠
      .error (.tooDeep (Engine.pair true "A1").settings.maxDepth) := by
    rw [hreply]
    simp
  refine ⟨Workbook.built_pair true "A1", hcircle, hspelled, hreply, ?_⟩
  obtain ⟨hsame, -⟩ := reply_independent (Workbook.built_pair true "A1") {} hcircle
  refine (hsame _ (.cell pairFormula) ?_ hdeep).trans hreply
  exact List.forall_mem_cons.mpr ⟨trivial, List.forall_mem_singleton.mpr hspelled⟩

/-- Two formulas that ask for each other's cell where the sheet of their own cell is not spelled as
stored, since `INDIRECT` finds the stored spelling, and for no cell where it is. -/
def entangled : Engine :=
  .formulaPair "IFERROR(ROWS(C1:INDIRECT(\"C1\")),B1)"
    "IF(ISERROR(ROWS(C1:INDIRECT(\"C1\"))),ISERROR(A1),0)"

set_option maxRecDepth 8000 in
theorem plain_entangled :
    (entangled.plain 1 pairValue).isSome ∧ (entangled.plain 1 pairFormula).isSome := by
  decide +kernel

theorem circleFree_entangled {cell : CellAddress}
    (h : entangled.source.canonical cell = .ok cell) : entangled.CircleFree cell := by
  obtain ⟨sheet, row, col⟩ := cell
  have hspells : entangled.source.workbook.sheetName? sheet = some sheet :=
    Source.canonical_spells h
  obtain ⟨_, hsheet, rfl⟩ := Option.map_eq_some_iff.mp hspells
  obtain rfl := List.mem_singleton.mp (List.mem_of_find?_eq_some hsheet)
  have hu : entangled.Uniform := uniform rfl
  cases hcell : entangled.holding ⟨"Sheet1", row, col⟩ with
  | result r => exact circleFree_of_plain hu (plain_of_result hcell 0)
  | formula e =>
      obtain ⟨content, text, hread, htext, -⟩ := holding_eq_formula.mp hcell
      obtain ⟨hfirst, hsecond⟩ := plain_entangled
      obtain ⟨rfl, rfl, -⟩ | ⟨rfl, rfl, -⟩ := read_formulaPair hread htext
      · exact circleFree_of_plain hu (Option.eq_some_of_isSome hfirst)
      · exact circleFree_of_plain hu (Option.eq_some_of_isSome hsecond)

set_option maxRecDepth 8000 in
/-- A formula that names a sheet in another spelling is answered by what was asked before, although
no circle is met from any cell of the workbook. -/
theorem reply_by_spelling :
    (∀ cell, entangled.source.canonical cell = .ok cell → entangled.CircleFree cell) ∧
      ((fresh entangled).reply (.formula "=SHEET1!A1" pairValue)).1 = .ok (.scalar (.bool true)) ∧
      (((fresh entangled).queried [.formula "=SHEET1!B1" pairValue]).reply
        (.formula "=SHEET1!A1" pairValue)).1 = .ok (.error .circular) := by
  refine ⟨fun _ => circleFree_entangled, ?_, ?_⟩
  · decide +kernel
  · decide +kernel

end Evaluator

end Spreadsheet
