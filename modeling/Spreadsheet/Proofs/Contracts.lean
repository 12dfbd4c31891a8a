-- SUMMARY: What inquiries may do as long as answers fit, and what all runs then come to.
import Spreadsheet.Proofs.Builtins
import Spreadsheet.Proofs.History

/-!
# Contracts

A contract tells what an inquiry may note, ask for and fail with, and which answers it relies
on. If every formula meets its contract, so does every run: what is remembered and what is
answered fits. Chains of formulas follow the references that contracts allow, so a cell that
answers the marker of a circle leads to the one that asks for it.
-/

namespace Spreadsheet

open Std Relation

structure Contract where
  notes : Reading → Prop := fun _ => True
  asks : CellAddress → Prop := fun _ => True
  /-- The answers that are relied on. -/
  fits : CellAddress → Value → Prop := fun _ _ => True
  fails : Failure → Prop := fun _ => True

/-- All that the first contract allows is allowed by the second, and the first relies on no more
answers. -/
structure Contract.Implies (contract contract' : Contract) : Prop where
  notes : ∀ r, contract.notes r → contract'.notes r
  asks : ∀ c, contract.asks c → contract'.asks c
  fits : ∀ c v, contract'.fits c v → contract.fits c v
  fails : ∀ failure, contract.fails failure → contract'.fails failure

theorem Contract.Implies.refl (contract : Contract) : contract.Implies contract where
  notes _ h := h
  asks _ h := h
  fits _ _ h := h
  fails _ h := h

namespace Inquiry

variable {α β : Type} {contract contract' : Contract} {post post' : α → Prop} {q : Inquiry α}

/-- As long as the answers fit, the inquiry does what the contract allows and its result has the
property. -/
def Meets (contract : Contract) (post : α → Prop) : Inquiry α → Prop
  | .done a => post a
  | .fail failure => contract.fails failure
  | .note r next => contract.notes r ∧ next.Meets contract post
  | .ask c resume => contract.asks c ∧ ∀ v, contract.fits c v → (resume v).Meets contract post

theorem Meets.bind {post' : β → Prop} {f : α → Inquiry β} (hq : q.Meets contract post)
    (hf : ∀ a, post a → (f a).Meets contract post') : (q.bind f).Meets contract post' := by
  induction q with
  | done a => exact hf a hq
  | fail failure => exact hq
  | note r next ih => exact ⟨hq.1, ih hq.2⟩
  | ask c resume ih => exact ⟨hq.1, fun v hv => ih v (hq.2 v hv)⟩

theorem Meets.mono (hq : q.Meets contract post) (h : contract.Implies contract')
    (hpost : ∀ a, post a → post' a) : q.Meets contract' post' := by
  induction q with
  | done a => exact hpost a hq
  | fail failure => exact h.fails failure hq
  | note r next ih => exact ⟨h.notes r hq.1, ih hq.2⟩
  | ask c resume ih =>
      exact ⟨h.asks c hq.1, fun v hv => ih v (hq.2 v (h.fits c v hv))⟩

/-- Nothing is wrong with an inquiry that may do anything. -/
theorem meets_of_any (hnotes : ∀ r, contract.notes r) (hasks : ∀ c, contract.asks c)
    (hfails : ∀ failure, contract.fails failure) (q : Inquiry α) :
    q.Meets contract fun _ => True := by
  induction q with
  | done a => trivial
  | fail failure => exact hfails failure
  | note r next ih => exact ⟨hnotes r, ih⟩
  | ask c resume ih => exact ⟨hasks c, fun v _ => ih v⟩

/-- If it relies on no answers, it asks only for what the contract allows. -/
theorem Meets.asksOnly (hq : q.Meets contract post) (hfits : ∀ c v, contract.fits c v) :
    q.AsksOnly contract.asks := by
  induction q with
  | done a => trivial
  | fail failure => trivial
  | note r next ih => exact ih hq.2
  | ask c resume ih => exact ⟨hq.1, fun v => ih v (hq.2 v (hfits c v))⟩

theorem Meets.congruence (contract : Contract) :
    Relator.Congruence (fun R q _ => q.Meets contract fun a => ∃ b, R a b) contract.fails where
  done h := ⟨_, h⟩
  fail h := h
  bind hq hf := hq.bind fun a ⟨b, hab⟩ => hf a b hab

/-- Where all answers fit, the results have the property however the inquiry is run. -/
theorem Meets.of_run {record : Reading → Evaluation Unit} {answer : CellAddress → Evaluation Value}
    {m m' : Memory} {a : α} (hq : q.Meets contract post) (hfits : ∀ c v, contract.fits c v)
    (h : (q.run record answer).on m = (.ok a, m')) : post a := by
  induction q generalizing m with
  | done a' =>
      cases h
      exact hq
  | fail failure => cases h
  | note r next ih =>
      rw [run, Evaluation.on_bind] at h
      split at h
      · exact ih hq.2 h
      · cases h
  | ask c resume ih =>
      rw [run, Evaluation.on_bind] at h
      split at h
      · rename_i v _ _
        exact ih v (hq.2 v (hfits c v)) h
      · cases h

end Inquiry

/-! ## Reading areas -/

namespace Site

variable {site : Site} {area block : Area} {used : Option Area} {contract : Contract}

theorem meets_readCells (hasks : ∀ index < block.size, contract.asks (block.cellAt index))
    {count : Nat} (hcount : count ≤ block.size) (read : Array Scalar) :
    (readCells block used count read).Meets contract fun _ => True := by
  induction count generalizing read with
  | zero => trivial
  | succ count ih =>
      unfold readCells
      dsimp only
      split
      · exact ⟨hasks _ (by omega), fun v _ => ih (by omega) _⟩
      · exact ih (by omega) _

theorem meets_readBlock
    (hasks : ∀ c, c.sheet = block.sheet → (block.Proper → block.contains c) → contract.asks c) :
    (readBlock block used).Meets contract fun _ => True :=
  (meets_readCells (fun _ hindex => hasks _ rfl fun h => Area.contains_cellAt h hindex)
    (Nat.le_refl _) _).bind fun _ _ => trivial

variable (hnotes : ∀ r : Reading, r.region.sheet = area.sheet → contract.notes r)
  (hasks : ∀ c, c.sheet = area.sheet → (area.Proper → area.contains c) → contract.asks c)
include hnotes hasks

/-- Reading an area notes something about its sheet and asks for cells of it, in the area if it is a
proper one. -/
theorem meets_readArea : (site.readArea area).Meets contract fun _ => True := by
  unfold readArea
  split
  · exact ⟨hnotes (.cell area.topLeft) rfl, hasks _ rfl Area.contains_topLeft, fun v _ => trivial⟩
  · dsimp only
    refine ⟨hnotes (.table area) rfl, ?_⟩
    split
    · trivial
    · refine (meets_readBlock fun c hsheet hc => ?_).bind fun _ _ => trivial
      exact hasks c (hsheet.trans Area.clip_sheet) fun ha =>
        Area.contains_of_clip ha (hc (ha.clip _ _))

theorem meets_readUsed : (site.readUsed area).Meets contract fun _ => True := by
  unfold readUsed
  dsimp only
  refine ⟨hnotes (.used area) rfl, ?_⟩
  split
  · rename_i used hused
    obtain ⟨-, -, hsheet⟩ := Area.within?_eq_some hused
    refine meets_readBlock fun c hc hin => hasks c (hc.trans (hsheet ▸ rfl)) fun ha => ?_
    exact ((Area.contains_within?_iff hused).mp (hin (ha.within? hused))).1
  · trivial

end Site

/-! ## Formulas of the built-in functions -/

/-- Only cells of the grid on the sheets are asked for and noted, and nothing fails. -/
def Contract.onSheets (known : String → Prop) : Contract where
  notes r := known r.region.sheet
  asks c := known c.sheet ∧ Grid.HasRow c.row ∧ Grid.HasCol c.col
  fails _ := False

namespace Formula.Expr

variable {registry : Registry} {site : Site} {known : String → Prop} {e : Expr}

theorem writes_inGrid (he : e.Written) (site : Site) :
    ∀ node ∈ e.nodes, site.Writes Area.InGrid node := by
  intro node hnode
  have hwritten := he node hnode
  cases node with
  | cell sheet? coord => exact fun sheet _ => .ofCell hwritten.1 hwritten.2
  | area sheet? corners => exact fun sheet _ => Corners.InGrid.on hwritten sheet
  | _ => trivial

theorem admits_onSheets (he : e.Written) (hnames : e.NamesSheets site.source known)
    (hcell : known site.cell.sheet) (hcount : ∀ node ∈ e.nodes, registry.callFailure? node = none) :
    ∀ node ∈ e.nodes, site.Admits registry (fun area => area.InGrid ∧ known area.sheet)
      (fun _ => False) node := by
  intro node hnode
  refine ⟨(writes_inGrid he site node hnode).and (writes_sheets hnames hcell node hnode), ?_⟩
  intro failure h
  rw [hcount node hnode] at h
  cases h

/-- A formula asks only for cells of the grid on sheets that it names, that names and `INDIRECT`
find, or that it is on itself, and it does not fail unless an answer fails. -/
theorem meets_onSheets (hregistry : ∀ f ∈ registry.functions, f.Regular)
    (habort : registry.GivesUp fun _ => False) (hnames : site.source.NamesInGrid)
    (hknown : ∀ sheet, site.source.Spells sheet → known sheet) (hcell : known site.cell.sheet)
    (he : e.Written) (hsheets : e.NamesSheets site.source known)
    (hcount : ∀ node ∈ e.nodes, registry.callFailure? node = none) :
    (e.value registry site).Meets (.onSheets known) fun _ => True := by
  have hnotes {area : Area} (hsheet : known area.sheet) (r : Reading)
      (h : r.region.sheet = area.sheet) : (Contract.onSheets known).notes r :=
    (h ▸ hsheet : known r.region.sheet)
  have hasks {area : Area} (harea : area.InGrid) (hsheet : known area.sheet) (c : CellAddress)
      (hc : c.sheet = area.sheet) (hin : area.Proper → area.contains c) :
      (Contract.onSheets known).asks c :=
    ⟨hc ▸ hsheet, harea.of_contains (hin harea.toProper)⟩
  have hreads : Site.Reads (fun area => area.InGrid ∧ known area.sheet) (fun _ => False)
      (fun R q _ => q.Meets (.onSheets known) fun a => ∃ b, R a b) site site := {
    cell := rfl
    sheetName := rfl
    nameTarget := rfl
    compose := Inquiry.Meets.congruence (.onSheets known)
    keeps := (Site.keeps_inGrid hnames).and (Site.keeps_sheet hknown)
    area := fun area ⟨harea, hsheet⟩ =>
      (Site.meets_readArea (hnotes hsheet) (hasks harea hsheet)).mono
        (.refl _) fun v _ => ⟨v, rfl⟩
    used := fun area ⟨harea, hsheet⟩ =>
      (Site.meets_readUsed (hnotes hsheet) (hasks harea hsheet)).mono
        (.refl _) fun t _ => ⟨t, rfl⟩ }
  exact (related_value hreads hregistry habort e
    (admits_onSheets he hsheets hcell hcount)).mono (.refl _) fun _ _ => trivial

end Formula.Expr

/-- No built-in function gives up. -/
theorem Registry.builtins_givesUp (fails : Failure → Prop) : Registry.builtins.GivesUp fails := by
  have hall : ∀ f ∈ Registry.builtins.functions, f.implementation ≠ .abort := by
    simp only [builtins, references, logic, information, aggregates, List.forall_mem_append,
      List.forall_mem_cons]
    simp
  exact fun f hf habort => absurd habort (hall f hf)

/-- Only the sheets are noted and asked for. -/
def Contract.ofSheets (known : String → Prop) : Contract where
  notes r := known r.region.sheet
  asks c := known c.sheet

/-- A formula on a known sheet that names known sheets only notes and asks for cells on such. -/
theorem Engine.meets_ofSheets {engine : Engine} {known : String → Prop}
    (hregistry : engine.registry = .builtins) (hnames : engine.source.NamesInGrid)
    (hknown : ∀ sheet, engine.source.Spells sheet → known sheet) {text : String}
    {e : Formula.Expr} {c : CellAddress} {depth : Nat} (hc : known c.sheet)
    (he : engine.registry.readFormula text = .ok e)
    (hsheets : e.NamesSheets engine.source known) :
    (e.value engine.registry ⟨engine.source, c, depth⟩).Meets (.ofSheets known) fun _ => True := by
  refine (Formula.Expr.meets_onSheets (Engine.regular hregistry) ?_ hnames hknown hc
    (Registry.written_of_readFormula he) hsheets (Registry.readFormula_eq_ok.mp he).2).mono ?_
    fun _ _ => trivial
  · exact hregistry ▸ Registry.builtins_givesUp _
  · exact ⟨fun _ h => h, fun _ h => h.1, fun _ _ _ => trivial, fun _ h => h.elim⟩

/-! ## Runs -/

/-- What is expected of cells: which of them are asked for, which of them each may ask for, and
what they come to. -/
structure Expectation where
  cells : CellAddress → Prop := fun _ => True
  refers : CellAddress → CellAddress → Prop := fun _ _ => True
  fits : CellAddress → Value → Prop := fun _ _ => True
  fails : Failure → Prop := fun _ => True

namespace Expectation

/-- The contract of what is inquired below the cells of `chain`, which all lead to what is asked
for. They answer the marker of a circle. -/
def below (x : Expectation) (chain : List CellAddress) : Contract where
  asks c := x.cells c ∧ ∀ y ∈ chain, ReflTransGen x.refers y c
  fits c v := (c ∈ chain ∧ v = .error .circular) ∨ (c ∉ chain ∧ x.fits c v)
  fails := x.fails

/-- The contract of the formula of a cell below the cells of `chain`. -/
def contract (x : Expectation) (chain : List CellAddress) (cell : CellAddress) : Contract where
  asks c := x.cells c ∧ x.refers cell c
  fits := (x.below (cell :: chain)).fits
  fails := x.fails

/-- A result that is no failure has the property. -/
def Outcome (x : Expectation) (post : Value → Prop) : Except Failure Value → Prop
  | .ok v => post v
  | .error failure => x.fails failure

/-- The values that are remembered fit. -/
def Remembered (x : Expectation) (m : Memory) : Prop :=
  ∀ c v, x.cells c → m.values[c]? = some v → x.fits c v

/-- As expected, the values that the task comes to have the property. -/
def Brings (x : Expectation) (post : Value → Prop) : Task → Prop
  | .cell _ chain c => (x.below chain).asks c ∧ ∀ v, (x.below chain).fits c v → post v
  | .inquiry _ chain _ q => q.Meets (x.below chain) post

variable {x : Expectation} {chain : List CellAddress} {cell : CellAddress}

/-- Below a chain that leads to the cell, its contract is that of a longer chain. -/
theorem implies_below (hchain : ∀ y ∈ chain, ReflTransGen x.refers y cell) :
    (x.contract chain cell).Implies (x.below (cell :: chain)) where
  notes _ h := h
  asks c h := by
    refine ⟨h.1, List.forall_mem_cons.mpr ⟨.single h.2, fun y hy => ?_⟩⟩
    exact (hchain y hy).tail h.2
  fits _ _ h := h
  fails _ h := h

theorem Outcome.mono {post post' : Value → Prop} (hpost : ∀ v, post v → post' v)
    {s : Except Failure Value} (h : x.Outcome post s) : x.Outcome post' s := by
  cases s with
  | ok v => exact hpost v h
  | error failure => exact h

end Expectation

/-- All cells are as expected if their formulas meet their contracts below cells that lead to
them. -/
structure Engine.Fulfils (engine : Engine) (x : Expectation) : Prop where
  tooDeep : x.fails (.tooDeep engine.settings.maxDepth)
  settled : ∀ c r, x.cells c → engine.holding c = .result r → x.Outcome (x.fits c) r
  formula : ∀ chain c e, x.cells c → engine.holding c = .formula e →
    (∀ y ∈ chain, ReflTransGen x.refers y c) →
    (engine.inquiry chain c e).Meets (x.contract chain c) (x.fits c)

/-- Where all cells are as expected, so are the results of every run and what it remembers. -/
theorem Runs.fulfils {engine : Engine} {x : Expectation} (hengine : engine.Fulfils x)
    {task : Task} {m m' : Memory} {s : Except Failure Value} {log : Log}
    (h : Runs engine task m s m' log) (hm : x.Remembered m) {post : Value → Prop}
    (htask : x.Brings post task) : x.Remembered m' ∧ x.Outcome post s := by
  -- the formula of an expected cell meets its contract below the cells under computation
  have hformula {d : Nat} {chain : List CellAddress} {cell : CellAddress} {e : Formula.Expr}
      {post : Value → Prop} (htask : x.Brings post (.cell (d + 1) chain cell))
      (he : engine.holding cell = .formula e) :
      x.Brings (x.fits cell)
        (.inquiry d (cell :: chain) (some cell) (engine.inquiry chain cell e)) :=
    (hengine.formula chain cell e htask.1.1 he htask.1.2).mono
      (Expectation.implies_below htask.1.2) fun _ hv => hv
  induction h generalizing post with
  | circle hc => exact ⟨hm, htask.2 _ (.inl ⟨hc, rfl⟩)⟩
  | settled hc hr =>
      exact ⟨hm, (hengine.settled _ _ htask.1.1 hr).mono fun v hv => htask.2 v (.inr ⟨hc, hv⟩)⟩
  | remembered hc hv => exact ⟨hm, htask.2 _ (.inr ⟨hc, hm _ _ htask.1.1 hv⟩)⟩
  | tooDeep _ _ _ => exact ⟨hm, hengine.tooDeep⟩
  | computed hc he _ _ ih =>
      obtain ⟨hm', hv⟩ := ih hm (hformula htask he)
      refine ⟨fun c w hc hw => ?_, htask.2 _ (.inr ⟨hc, hv⟩)⟩
      rw [Memory.values_keep] at hw
      split at hw
      · rename_i hkeep
        obtain ⟨-, rfl⟩ := hkeep
        cases hw
        exact hv
      · exact hm' c w hc hw
  | failed _ he _ _ ih =>
      obtain ⟨hm', hfails⟩ := ih hm (hformula htask he)
      exact ⟨hm', hfails⟩
  | done => exact ⟨hm, htask⟩
  | fail => exact ⟨hm, htask⟩
  | note _ ih =>
      refine ih (fun c v hc hv => hm c v hc ?_) htask.2
      rwa [Memory.values_noted] at hv
  | @asked depth chain _ _ _ _ c _ _ _ _ _ _ _ ih₁ ih =>
      have hcell : x.Brings ((x.below chain).fits c) (.cell depth chain c) :=
        ⟨htask.1, fun _ hv => hv⟩
      obtain ⟨hm₁, hv⟩ := ih₁ hm hcell
      exact ih hm₁ (htask.2 _ hv)
  | @askFailed depth chain _ _ _ c _ _ _ _ ih =>
      have hcell : x.Brings (fun _ => True) (.cell depth chain c) := ⟨htask.1, fun _ _ => trivial⟩
      obtain ⟨hm', hfails⟩ := ih hm hcell
      exact ⟨hm', hfails⟩

namespace Evaluator

variable {ev : Evaluator} {x : Expectation} {query : Query} {q : Inquiry Value}
  {post : Value → Prop}

theorem remembered_fresh (engine : Engine) (x : Expectation) :
    x.Remembered (fresh engine).memory := by
  intro c v _ hv
  simp [fresh] at hv

/-- Where all cells are as expected, so is the reply to a query, and what it leaves remembered. -/
theorem reply_fulfils (hengine : ev.toEngine.Fulfils x) (hread : ev.FormulasRead ev.memory)
    (hm : x.Remembered ev.memory) (hq : query.inquiry ev.toEngine = .ok q)
    (hmeets : q.Meets (x.below []) post) :
    x.Remembered (ev.reply query).2.memory ∧ x.Outcome post (ev.reply query).1 := by
  obtain ⟨formulas, s, m', log, hreply, hruns, -, -⟩ := reply_runs hread hq
  rw [hreply]
  exact hruns.fulfils hengine hm hmeets

/-- Where all cells are as expected, so is the value of each. -/
theorem evaluate_fulfils (hengine : ev.toEngine.Fulfils x) (hread : ev.FormulasRead ev.memory)
    (hm : x.Remembered ev.memory) {cell c : CellAddress}
    (hcell : ev.source.canonical cell = .ok c) (hc : x.cells c) :
    x.Remembered (ev.evaluate cell).2.memory ∧ x.Outcome (x.fits c) (ev.evaluate cell).1 := by
  have hmeets : (Inquiry.ask c .done).Meets (x.below []) (x.fits c) := by
    refine ⟨⟨hc, List.forall_mem_nil _⟩, fun v hv => ?_⟩
    exact (hv.resolve_left fun ⟨hmem, _⟩ => List.not_mem_nil hmem).2
  exact reply_fulfils hengine hread hm (Query.inquiry_cell hcell) hmeets

end Evaluator

end Spreadsheet
