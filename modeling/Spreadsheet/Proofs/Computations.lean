-- SUMMARY: What values were computed from is recorded, and writes drop what read the cell.
import Spreadsheet.Proofs.Builtins
import Spreadsheet.Proofs.History
import Spreadsheet.Proofs.Invalidation

/-!
# Computations and their records

Every remembered value is that of the last computation of its cell. All that this
computation noted is recorded, whatever failed or went in circles meanwhile, so a write
drops the value if the computation read the written cell.
-/

namespace Spreadsheet

open Engine Workbook

/-! ## Last computations -/

/-- What the formula of a cell came to, noted and asked for. -/
structure Computation where
  value : Value
  readings : List Reading
  asked : List CellAddress

/-- The last computation of a cell that came to a value. -/
def lastComputation? (x : CellAddress) : List Event → Option Computation
  | [] => none
  | .circle _ :: events => lastComputation? x events
  | .computed cell value readings asked :: events =>
    (lastComputation? x events).or (if cell = x then some ⟨value, readings, asked⟩ else none)

theorem lastComputation?_append (x : CellAddress) (events events' : List Event) :
    lastComputation? x (events ++ events') =
      (lastComputation? x events').or (lastComputation? x events) := by
  induction events with
  | nil => simp [lastComputation?]
  | cons event events ih =>
      cases event with
      | circle c => exact ih
      | computed cell v readings asked =>
          simp only [List.cons_append, lastComputation?, ih, Option.or_assoc]

theorem mem_of_lastComputation? {x : CellAddress} {computation : Computation}
    {events : List Event} (h : lastComputation? x events = some computation) :
    .computed x computation.value computation.readings computation.asked ∈ events := by
  induction events with
  | nil => cases h
  | cons event events ih =>
      cases event with
      | circle c => exact List.mem_cons_of_mem _ (ih h)
      | computed cell v readings asked =>
          obtain h | ⟨-, h⟩ := Option.or_eq_some_iff.mp h
          · exact List.mem_cons_of_mem _ (ih h)
          · split at h
            · rename_i hcell
              cases h
              exact hcell ▸ List.mem_cons_self
            · cases h

/-- The value of each remembered cell is that of its last computation, and all that one noted is
recorded. -/
def Memory.ToldBy (m : Memory) (history : List Event) : Prop :=
  ∀ x v, m.values[x]? = some v → ∃ readings asked,
    lastComputation? x history = some ⟨v, readings, asked⟩ ∧
      ∀ r ∈ readings, r.precedent ∈ m.precedents x

/-- All that is asked for lies in what was noted. -/
def Event.Covered : Event → Prop
  | .circle _ => True
  | .computed _ _ readings asked => ∀ c ∈ asked, ∃ r ∈ readings, r.region.contains c

/-- What an announced inquiry asks for lies in what was noted. -/
def Log.CoveredFor (log : Log) : Task → Prop
  | .cell _ _ _ => True
  | .inquiry _ _ _ q => ∀ noted, q.Announced (fun _ => True) noted →
    ∀ c ∈ log.asked, ∃ r, (r ∈ noted ∨ r ∈ log.readings) ∧ r.region.contains c

namespace Runs

variable {engine : Engine} {task : Task} {m m' : Memory} {s : Except Failure Value} {log : Log}

theorem toldBy_forget {history : List Event} {cell : CellAddress}
    {formulas : Std.TreeMap String Formula.Expr} (hm : m.ToldBy history)
    (hnone : m.values[cell]? = none) :
    (Memory.forget { m with formulas } cell).ToldBy history := by
  intro x v hx
  obtain ⟨readings, asked, hlast, hread⟩ := hm x v hx
  exact ⟨readings, asked, hlast, fun r hr =>
    Memory.mem_precedents_forget_of_remembered hnone hx (hread r hr)⟩

/-- A run makes a history in which every value it leaves has its last computation. -/
theorem toldBy (h : Runs engine task m s m' log) {history : List Event} (hm : m.ToldBy history) :
    m'.ToldBy (history ++ log.events) := by
  induction h generalizing history with
  | @circle _ _ cell _ hc =>
      intro x v hx
      obtain ⟨readings, asked, hlast, hread⟩ := hm x v hx
      exact ⟨readings, asked, by rw [lastComputation?_append]; exact hlast, hread⟩
  | settled _ _ => exact (List.append_nil history).symm ▸ hm
  | remembered _ _ => exact (List.append_nil history).symm ▸ hm
  | tooDeep _ _ _ => exact (List.append_nil history).symm ▸ hm
  | @computed _ _ cell m m' _ _ v log hc he hnone hrun ih =>
      intro x w hx
      have hmiddle := ih (toldBy_forget hm hnone)
      rw [Memory.values_keep] at hx
      rw [Memory.precedents_keep, ← List.append_assoc, lastComputation?_append]
      by_cases hcell : cell = x
      · obtain rfl := hcell
        -- the cell was under computation, so its value is the one just computed
        have hnone' : m'.values[cell]? = none := hrun.values_chain List.mem_cons_self hnone
        by_cases hremember : engine.settings.remember = true
        · rw [if_pos ⟨hremember, rfl⟩] at hx
          cases hx
          refine ⟨log.readings, log.asked, ?_, fun r hr => ?_⟩
          · simp [lastComputation?]
          · exact hrun.readings_recorded rfl List.mem_cons_self hr
        · rw [if_neg fun h => hremember h.1, hnone'] at hx
          cases hx
      · rw [if_neg fun h => hcell h.2] at hx
        obtain ⟨readings, asked, hlast, hread⟩ := hmiddle x w hx
        refine ⟨readings, asked, ?_, hread⟩
        simpa [lastComputation?, hcell] using hlast
  | failed _ _ hnone _ ih => exact ih (toldBy_forget hm hnone)
  | done => exact (List.append_nil history).symm ▸ hm
  | fail => exact (List.append_nil history).symm ▸ hm
  | @note _ _ reader m _ note _ _ _ _ ih =>
      refine ih fun x v hx => ?_
      rw [Memory.values_noted] at hx
      obtain ⟨readings, asked, hlast, hread⟩ := hm x v hx
      exact ⟨readings, asked, hlast, fun r hr =>
        Memory.mem_precedents_noted.mpr (.inr (hread r hr))⟩
  | asked _ _ ih₁ ih => exact List.append_assoc history _ _ ▸ ih (ih₁ hm)
  | askFailed _ ih => exact ih hm

/-- All that formulas ask for lies in what they noted. -/
theorem covered (hregistry : engine.registry = .builtins) (hnames : engine.source.NamesProper)
    (h : Runs engine task m s m' log) :
    (∀ event ∈ log.events, event.Covered) ∧ log.CoveredFor task := by
  induction h with
  | circle _ => exact ⟨List.forall_mem_singleton.mpr trivial, trivial⟩
  | settled _ _ => exact ⟨List.forall_mem_nil _, trivial⟩
  | remembered _ _ => exact ⟨List.forall_mem_nil _, trivial⟩
  | tooDeep _ _ _ => exact ⟨List.forall_mem_nil _, trivial⟩
  | @computed depth chain cell _ _ e _ _ log _ he _ _ ih =>
      refine ⟨List.forall_mem_append.mpr ⟨ih.1, List.forall_mem_singleton.mpr ?_⟩, trivial⟩
      intro c hc
      have hvalue : (engine.inquiry chain cell e).Announced (fun _ => True) [] :=
        Formula.Expr.announced_value (regular hregistry) hnames (proper_of_holding he) []
      obtain ⟨r, hr, hcontains⟩ := ih.2 [] hvalue c hc
      exact ⟨r, hr.resolve_left List.not_mem_nil, hcontains⟩
  | failed _ _ _ _ ih => exact ⟨ih.1, trivial⟩
  | done => exact ⟨List.forall_mem_nil _, fun _ _ => List.forall_mem_nil _⟩
  | fail => exact ⟨List.forall_mem_nil _, fun _ _ => List.forall_mem_nil _⟩
  | @note _ _ _ _ _ note _ _ _ _ ih =>
      refine ⟨ih.1, fun noted hq c hc => ?_⟩
      obtain ⟨r, hr, hcontains⟩ := ih.2 (note :: noted) hq c hc
      exact ⟨r, Inquiry.mem_readings_of_noted hr, hcontains⟩
  | asked _ _ ih₁ ih =>
      refine ⟨List.forall_mem_append.mpr ⟨ih₁.1, ih.1⟩, fun noted hq c hc => ?_⟩
      obtain ⟨⟨r, hr, hcontains⟩, hrest⟩ := hq
      obtain rfl | hc := List.mem_cons.mp hc
      · exact ⟨r, .inl hr, hcontains⟩
      · exact ih.2 noted (hrest _) c hc
  | askFailed _ ih =>
      refine ⟨ih.1, fun noted hq c hc => ?_⟩
      obtain ⟨⟨r, hr, hcontains⟩, -⟩ := hq
      obtain rfl := List.mem_singleton.mp hc
      exact ⟨r, .inl hr, hcontains⟩

end Runs

/-! ## Histories -/

namespace Evaluator

variable {ev ev' : Evaluator} {op : Operation} {history events : List Event}

/-- What an evaluator remembers is told by a history. -/
structure RecordedBy (ev : Evaluator) (history : List Event) : Prop where
  formulas : ev.FormulasRead ev.memory
  mirrored : ev.memory.dependencies.Mirrored
  told : ev.memory.ToldBy history

theorem recordedBy_fresh (engine : Engine) : (fresh engine).RecordedBy [] where
  formulas := formulasRead_empty
  mirrored := Dependencies.mirrored_empty
  told x v hx := by simp [fresh] at hx

theorem RecordedBy.step (hev : ev.RecordedBy history) (h : ev.Step op events ev')
    (hread : ev'.FormulasRead ev'.memory) : ev'.RecordedBy (history ++ events) := by
  cases h with
  | idle => exact ⟨hread, hev.mirrored, (List.append_nil history).symm ▸ hev.told⟩
  | answered _ hruns => exact ⟨hread, hruns.mirrored hev.mirrored, hruns.toldBy hev.told⟩
  | @written cell a content book' formulas _ _ _ =>
      refine ⟨hread, Memory.mirrored_invalidate hev.mirrored, fun x v hx => ?_⟩
      obtain ⟨hx, hne, -⟩ := (Memory.values_invalidate hev.mirrored).mp hx
      obtain ⟨readings, asked, hlast, hrecorded⟩ := hev.told x v hx
      refine ⟨readings, asked, (List.append_nil history).symm ▸ hlast, fun r hr => ?_⟩
      exact Memory.mem_precedents_invalidate.mpr ⟨Ne.symm hne, hrecorded r hr⟩
  | forgotten =>
      exact ⟨hread, Dependencies.mirrored_empty, fun x v hx => by simp [forgetValues] at hx⟩

theorem RecordedBy.after (hev : ev.RecordedBy history) (ops : List Operation) :
    (ev.after ops).RecordedBy (history ++ ev.history ops) := by
  induction ops generalizing ev history with
  | nil => exact (List.append_nil history).symm ▸ hev
  | cons op ops ih =>
      obtain ⟨hstep, hread⟩ := step_apply hev.formulas op
      exact List.append_assoc history _ _ ▸ ih (hev.step hstep hread)

theorem Step.covered (h : ev.Step op events ev') (hregistry : ev.registry = .builtins)
    (hnames : ev.source.NamesProper) : ∀ event ∈ events, event.Covered := by
  cases h with
  | idle => exact List.forall_mem_nil _
  | answered _ hruns => exact (hruns.covered hregistry hnames).1
  | written _ _ _ => exact List.forall_mem_nil _
  | forgotten => exact List.forall_mem_nil _

theorem covered_history (hread : ev.FormulasRead ev.memory) (hregistry : ev.registry = .builtins)
    (hnames : ev.source.NamesProper) (ops : List Operation) :
    ∀ event ∈ ev.history ops, event.Covered := by
  intro event hevent
  obtain ⟨before, op, -, hevent⟩ := mem_history hevent
  obtain ⟨hregistry', -, -, hnames'⟩ := same_after hread before
  have hstep := (step_apply (formulasRead_after hread before) op).1
  refine hstep.covered (hregistry'.trans hregistry) (fun word area h => ?_) event hevent
  exact hnames word area (hnames' ▸ h)

/-! ## What a write reaches -/

/-- The cell is remembered with the value of its last computation, which made the readings. -/
def ComputedFrom (ev : Evaluator) (history : List Event) (x : CellAddress)
    (readings : List Reading) : Prop :=
  ∃ v asked, ev.memory.values[x]? = some v ∧
    lastComputation? x history = some ⟨v, readings, asked⟩

/-- The remembered cell was computed from the cell, in whatever case its sheet is spelled, directly
or through other remembered cells. -/
inductive Reaches (ev : Evaluator) (history : List Event) (a : CellAddress) :
    CellAddress → Prop where
  | read {x c : CellAddress} {readings : List Reading} {r : Reading} :
      ev.ComputedFrom history x readings → r ∈ readings → r.region.contains c →
      ev.source.SameCell c a → Reaches ev history a x
  | through {x y c : CellAddress} {readings : List Reading} {r : Reading} :
      ev.ComputedFrom history x readings → r ∈ readings → r.region.contains c →
      ev.source.SameCell c y → Reaches ev history a y → Reaches ev history a x

/-- Remembered cells, and what they were computed from, are spelled as stored. -/
def ComputedAsStored (ev : Evaluator) (history : List Event) : Prop :=
  ∀ x readings, ev.ComputedFrom history x readings →
    ev.source.Spells x.sheet ∧ ∀ r ∈ readings, ev.source.Spells r.region.sheet

/-- What a remembered cell was computed from is recorded. -/
theorem RecordedBy.recorded (hev : ev.RecordedBy history) {x : CellAddress}
    {readings : List Reading} (hx : ev.ComputedFrom history x readings) {r : Reading}
    (hr : r ∈ readings) : r.precedent ∈ ev.memory.precedents x := by
  obtain ⟨v, asked, hv, hlast⟩ := hx
  obtain ⟨readings', asked', hlast', hrecorded⟩ := hev.told x v hv
  obtain ⟨-, rfl, -⟩ := Computation.mk.inj (Option.some.inj (hlast.symm.trans hlast'))
  exact hrecorded r hr

theorem RecordedBy.reads (hev : ev.RecordedBy history) {x c : CellAddress}
    {readings : List Reading} (hx : ev.ComputedFrom history x readings) {r : Reading}
    (hr : r ∈ readings) (hc : r.region.contains c) : ev.memory.Reads x c :=
  ⟨r.precedent, hev.recorded hx hr, hc⟩

/-- Where all is spelled as stored, cells are found by what they were computed from. -/
theorem RecordedBy.transGen_of_reaches (hev : ev.RecordedBy history)
    (hstored : ev.ComputedAsStored history) {a x : CellAddress} (ha : ev.source.Spells a.sheet)
    (h : ev.Reaches history a x) :
    ev.source.Spells x.sheet ∧ Relation.TransGen ev.memory.Reads x a := by
  induction h with
  | @read x c readings r hx hr hc hsame =>
      obtain ⟨hspells, hreadings⟩ := hstored x readings hx
      have hsheet : c.sheet = r.region.sheet := (Area.contains_iff.mp hc).1
      obtain rfl := hsame.eq (hsheet ▸ hreadings r hr) ha
      exact ⟨hspells, .single (hev.reads hx hr hc)⟩
  | @through x y c readings r hx hr hc hsame _ ih =>
      obtain ⟨hspells, hreadings⟩ := hstored x readings hx
      have hsheet : c.sheet = r.region.sheet := (Area.contains_iff.mp hc).1
      obtain rfl := hsame.eq (hsheet ▸ hreadings r hr) ih.1
      exact ⟨hspells, .head (hev.reads hx hr hc) ih.2⟩

/-- **What was read is recorded, and a write drops what read the cell.** After any operations, all
readings of the last computation of a remembered cell are recorded as its precedents, and with
the built-in functions they hold every cell that the computation asked for. A successful write
drops exactly the cell, as the source spells it, and all that is recorded to depend on it in that
spelling. These are all cells that were computed from it, directly or through remembered cells, as
long as what is remembered was spelled as stored. -/
theorem recorded_and_dropped (engine : Engine) (ops : List Operation) :
    let ev := (fresh engine).after ops
    let history := (fresh engine).history ops
    (∀ x v, ev.memory.values[x]? = some v → ∃ readings asked,
      lastComputation? x history = some ⟨v, readings, asked⟩ ∧
      (∀ r ∈ readings, r.precedent ∈ ev.memory.precedents x) ∧
      (engine.registry = .builtins → engine.source.NamesProper →
        ∀ c ∈ asked, ev.memory.Reads x c)) ∧
    ∀ cell ev', ev.Writes cell ev' → ∃ a, ev.source.canonical cell = .ok a ∧
      (∀ x, ev'.memory.Remembers x ↔
        ev.memory.Remembers x ∧ x ≠ a ∧ ¬ Relation.TransGen ev.memory.Reads x a) ∧
      (ev.ComputedAsStored history → ∀ x, ev'.memory.Remembers x →
        ¬ ev.source.SameCell x a ∧ ¬ ev.Reaches history a x) := by
  intro ev history
  have hev : ev.RecordedBy history := (recordedBy_fresh engine).after ops
  refine ⟨fun x v hx => ?_, fun cell ev' hwrites => ?_⟩
  · obtain ⟨readings, asked, hlast, hrecorded⟩ := hev.told x v hx
    refine ⟨readings, asked, hlast, hrecorded, fun hregistry hnames c hc => ?_⟩
    have hcovered := covered_history formulasRead_empty hregistry hnames ops _
      (mem_of_lastComputation? hlast)
    obtain ⟨r, hr, hcontains⟩ := hcovered c hc
    exact ⟨r.precedent, hrecorded r hr, hcontains⟩
  · obtain ⟨a, content, book', formulas, ha, -, rfl⟩ := hwrites.eq hev.formulas
    have hremembers (x : CellAddress) :
        (Memory.invalidate { ev.memory with formulas } a).Remembers x ↔
          ev.memory.Remembers x ∧ x ≠ a ∧ ¬ Relation.TransGen ev.memory.Reads x a :=
      Memory.remembers_invalidate hev.mirrored
    refine ⟨a, ha, hremembers, fun hstored x hx => ?_⟩
    obtain ⟨⟨v, hv⟩, hne, hnot⟩ := (hremembers x).mp hx
    have haspells := Source.canonical_spells ha
    obtain ⟨readings, asked, hlast, -⟩ := hev.told x v hv
    obtain ⟨hxspells, -⟩ := hstored x readings ⟨v, asked, hv, hlast⟩
    exact ⟨fun hsame => hne (hsame.eq hxspells haspells),
      fun hreaches => hnot (hev.transGen_of_reaches hstored haspells hreaches).2⟩

set_option maxRecDepth 4000 in
theorem history_computedPair : (fresh (.pair true "A1")).history [.ask (.cell pairFormula)] =
    [.computed pairFormula (.scalar (.bool true)) [.cell pairValue] [pairValue]] := by
  decide +kernel

set_option maxRecDepth 4000 in
theorem recorded_and_dropped_pair :
    (∃ readings asked, lastComputation? pairFormula
          ((fresh (.pair true "A1")).history [.ask (.cell pairFormula)]) =
        some ⟨.scalar (.bool true), readings, asked⟩ ∧
        ∀ c ∈ asked, (computedPair "A1").memory.Reads pairFormula c) ∧
      ∃ ev', (computedPair "A1").Writes pairValue ev' ∧
        (computedPair "A1").Reaches
          ((fresh (.pair true "A1")).history [.ask (.cell pairFormula)]) pairValue pairFormula ∧
        ¬ ev'.memory.Remembers pairFormula := by
  obtain ⟨hrecorded, hdropped⟩ :=
    recorded_and_dropped (.pair true "A1") [.ask (.cell pairFormula)]
  have hnames : (Engine.pair true "A1").source.NamesProper :=
    Source.namesProper_of_wellFormed (Workbook.built_pair true "A1").wellFormed
  have hvalue : (computedPair "A1").memory.values[pairFormula]? =
      some (.scalar (.bool true)) := by decide +kernel
  have hlast (x : CellAddress) : lastComputation? x
        ((fresh (.pair true "A1")).history [.ask (.cell pairFormula)]) =
      if pairFormula = x then some ⟨.scalar (.bool true), [.cell pairValue], [pairValue]⟩
      else none :=
    congrArg (lastComputation? x) history_computedPair
  have hstored : (computedPair "A1").ComputedAsStored
      ((fresh (.pair true "A1")).history [.ask (.cell pairFormula)]) := by
    rintro x readings ⟨v, asked, -, h⟩
    rw [hlast] at h
    split at h
    · rename_i hx
      cases h
      subst hx
      exact ⟨rfl, List.forall_mem_singleton.mpr rfl⟩
    · cases h
  have hwrite : (writtenPair "A1" pairValue).1 = .ok () := by decide +kernel
  have hwrites : (computedPair "A1").Writes pairValue (writtenPair "A1" pairValue).2 :=
    .value (Prod.ext hwrite rfl)
  have hreaches : (computedPair "A1").Reaches
      ((fresh (.pair true "A1")).history [.ask (.cell pairFormula)]) pairValue pairFormula :=
    .read ⟨_, [pairValue], hvalue, (hlast _).trans (if_pos rfl)⟩ (List.mem_singleton.mpr rfl)
      (Area.contains_ofCell.mpr rfl) ⟨⟨"Sheet1", rfl, rfl⟩, rfl, rfl⟩
  obtain ⟨readings, asked, hcomputed, -, hreads⟩ := hrecorded pairFormula _ hvalue
  obtain ⟨a, ha, -, hnone⟩ := hdropped pairValue _ hwrites
  have hfirst : (computedPair "A1").source.canonical pairValue = .ok pairValue := rfl
  obtain rfl := Except.ok.inj (ha.symm.trans hfirst)
  exact ⟨⟨readings, asked, hcomputed, hreads rfl hnames⟩, _, hwrites, hreaches,
    fun h => (hnone hstored pairFormula h).2 hreaches⟩

/-- The cell with the value, its sheet spelled in another way. -/
def otherSpelling : CellAddress := { pairValue with sheet := "SHEET1" }

set_option maxRecDepth 4000 in
theorem history_otherSpelling :
    (fresh (.pair true "SHEET1!A1")).history [.ask (.cell pairFormula)] =
      [.computed pairFormula (.scalar (.bool true)) [.cell otherSpelling] [otherSpelling]] := by
  decide +kernel

set_option maxRecDepth 4000 in
theorem writtenPair_otherSpelling :
    ((computedPair "SHEET1!A1").memory.values[pairFormula]?,
        (writtenPair "SHEET1!A1" otherSpelling).1,
        (writtenPair "SHEET1!A1" otherSpelling).2.memory.values[pairFormula]?,
        ((writtenPair "SHEET1!A1" otherSpelling).2.evaluate pairFormula).1,
        ((fresh (writtenPair "SHEET1!A1" otherSpelling).2.toEngine).evaluate pairFormula).1) =
      (some (.scalar (.bool true)), .ok (), some (.scalar (.bool true)),
        .ok (.scalar (.bool true)), .ok (.scalar (.bool false))) := by
  decide +kernel

/-- A cell read in another spelling of its sheet is written without dropping what read it. -/
theorem remembered_in_other_spelling :
    ∃ ev, (computedPair "SHEET1!A1").Writes otherSpelling ev ∧
      (computedPair "SHEET1!A1").Reaches
        ((fresh (.pair true "SHEET1!A1")).history [.ask (.cell pairFormula)])
        otherSpelling pairFormula ∧
      ev.memory.Remembers pairFormula ∧
      (ev.evaluate pairFormula).1 = .ok (.scalar (.bool true)) ∧
      ((fresh ev.toEngine).evaluate pairFormula).1 = .ok (.scalar (.bool false)) := by
  obtain ⟨hvalue, h⟩ := Prod.mk.inj writtenPair_otherSpelling
  obtain ⟨hwrite, h⟩ := Prod.mk.inj h
  obtain ⟨hkept, h⟩ := Prod.mk.inj h
  obtain ⟨hstale, hfresh⟩ := Prod.mk.inj h
  have hlast := congrArg (lastComputation? pairFormula) history_otherSpelling
  refine ⟨_, .value (Prod.ext hwrite rfl), ?_, ⟨_, hkept⟩, hstale, hfresh⟩
  exact .read ⟨_, _, hvalue, hlast⟩ (List.mem_singleton.mpr rfl)
    (Area.contains_ofCell.mpr rfl) ⟨⟨"Sheet1", rfl, rfl⟩, rfl, rfl⟩

end Evaluator

end Spreadsheet
