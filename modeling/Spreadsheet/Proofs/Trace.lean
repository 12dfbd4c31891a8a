-- SUMMARY: What happens while cells are computed, and the runs of an engine as a relation.
import Spreadsheet.Proofs.Plain

/-!
# Traces

A trace tells what happened while a cell was computed: where the computation met a cell
that was already under way, and which cells were computed from what. The runs of an engine
are restated as a relation with one rule for each step, which is what the invariants of the
memory are proved by.
-/

namespace Spreadsheet

open Std

inductive Event where
  /-- A cell was asked for while it was being computed. -/
  | circle (cell : CellAddress)
  /-- The formula of a cell came to a value, having noted some readings and asked for some cells. -/
  | computed (cell : CellAddress) (v : Value) (readings : List Reading) (asked : List CellAddress)
  deriving DecidableEq, Repr

/-- What an inquiry noted and asked for itself, and what happened meanwhile. -/
structure Log where
  readings : List Reading := []
  asked : List CellAddress := []
  events : List Event := []

/-! ## Evaluations as functions of the memory -/

namespace Evaluation

variable {α β : Type}

/-- The result of a computation that starts with the memory, and the memory it leaves. -/
def on (x : Evaluation α) (m : Memory) : Except Failure α × Memory := x.run.run m

@[simp] theorem on_pure (a : α) (m : Memory) : (pure a : Evaluation α).on m = (.ok a, m) := rfl

@[simp] theorem on_throw (failure : Failure) (m : Memory) :
    (throw failure : Evaluation α).on m = (.error failure, m) := rfl

@[simp] theorem on_mk (r : Except Failure α) (m : Memory) :
    Evaluation.on (ExceptT.mk (pure r)) m = (r, m) := rfl

@[simp] theorem on_liftFault (r : Except Fault α) (m : Memory) :
    (liftFault r).on m = (r.mapError Failure.model, m) := rfl

@[simp] theorem on_get (m : Memory) : (get : Evaluation Memory).on m = (.ok m, m) := rfl

@[simp] theorem on_modify (f : Memory → Memory) (m : Memory) :
    (modify f : Evaluation Unit).on m = (.ok (), f m) := rfl

theorem on_bind (x : Evaluation α) (f : α → Evaluation β) (m : Memory) :
    (x >>= f).on m =
      match x.on m with
      | (.ok a, m') => (f a).on m'
      | (.error failure, m') => (.error failure, m') := by
  unfold on ExceptT.run StateT.run
  simp only [bind, ExceptT.bind, ExceptT.mk, StateT.bind, ExceptT.bindCont]
  cases x m with
  | mk r m' => cases r <;> rfl

theorem on_map (f : α → β) (x : Evaluation α) (m : Memory) :
    (f <$> x).on m = ((x.on m).1.map f, (x.on m).2) := by
  rw [map_eq_pure_bind, on_bind]
  cases x.on m with
  | mk r m' => cases r <;> rfl

theorem on_bind_ok {x : Evaluation α} {f : α → Evaluation β} {m m' : Memory} {a : α}
    (h : x.on m = (.ok a, m')) : (x >>= f).on m = (f a).on m' := by
  rw [on_bind, h]

theorem on_bind_error {x : Evaluation α} {f : α → Evaluation β} {m m' : Memory}
    {failure : Failure} (h : x.on m = (.error failure, m')) :
    (x >>= f).on m = (.error failure, m') := by
  rw [on_bind, h]

end Evaluation

/-- The memory once a reading of `reader` is recorded. What no cell reads is not. -/
def Memory.noted (m : Memory) (reader : Option CellAddress) (r : Reading) : Memory :=
  match reader with
  | some cell => m.record cell r
  | none => m

/-! ## Observing a run -/

/-- The log of running an inquiry for `reader`. `events` tells what happens while a cell is
visited. -/
def Inquiry.log {α : Type} (reader : Option CellAddress)
    (answer : CellAddress → Evaluation Value) (events : CellAddress → Memory → List Event) :
    Inquiry α → Memory → Log
  | .done _, _ | .fail _, _ => {}
  | .note r next, m =>
    let log := next.log reader answer events (m.noted reader r)
    { log with readings := r :: log.readings }
  | .ask c resume, m =>
    match (answer c).on m with
    | (.ok v, m') =>
      let log := (resume v).log reader answer events m'
      { log with asked := c :: log.asked, events := events c m ++ log.events }
    | (.error _, _) => { asked := [c], events := events c m }

namespace Engine

/-- Records a reading of `reader`. -/
def recordFor (reader : Option CellAddress) (r : Reading) : Evaluation Unit :=
  match reader with
  | some cell => modify (·.record cell r)
  | none => pure ()

theorem recordFor_on (reader : Option CellAddress) (r : Reading) (m : Memory) :
    (recordFor reader r).on m = (.ok (), m.noted reader r) := by
  cases reader <;> rfl

/-- What happens while a cell is visited below the cells of `chain`, from the first to the last. -/
def events (engine : Engine) :
    (depth : Nat) → (chain : List CellAddress) → (cell : CellAddress) → Memory → List Event
  | 0, chain, cell, _ => if cell ∈ chain then [.circle cell] else []
  | depth + 1, chain, cell, m =>
    if cell ∈ chain then [.circle cell]
    else
      match (engine.find chain cell).on m with
      | (.ok (.formula e), m) =>
        let q := engine.inquiry chain cell e
        let answer := engine.cellValue depth (cell :: chain)
        let log := q.log (some cell) answer (engine.events depth (cell :: chain)) (m.forget cell)
        match (q.run (recordFor (some cell)) answer).on (m.forget cell) with
        | (.ok v, _) => log.events ++ [.computed cell v log.readings log.asked]
        | (.error _, _) => log.events
      | _ => []

/-- All formulas that the memory has read are as the registry reads them. -/
def FormulasRead (engine : Engine) (m : Memory) : Prop :=
  ∀ text e, m.formulas[text]? = some e → engine.registry.readFormula text = .ok e

end Engine

/-! ## Runs as a relation -/

/-- What is run: a visit of a cell, or an inquiry made for `reader`, below the cells of `chain`
and with `depth` more formulas to go. -/
inductive Task where
  | cell (depth : Nat) (chain : List CellAddress) (cell : CellAddress)
  | inquiry (depth : Nat) (chain : List CellAddress) (reader : Option CellAddress)
    (q : Inquiry Value)

/-- Remembers the value of a cell if values are remembered. -/
def Memory.keep (m : Memory) (remember : Bool) (cell : CellAddress) (v : Value) : Memory :=
  if remember then m.remember cell v else m

/-- A task run from one memory gives a result and leaves another memory. Which formulas have been
read is left open. -/
inductive Runs (engine : Engine) : Task → Memory → Except Failure Value → Memory → Log → Prop where
  | circle {depth : Nat} {chain : List CellAddress} {cell : CellAddress} {m : Memory} :
      cell ∈ chain →
      Runs engine (.cell depth chain cell) m (.ok (.error .circular)) m
        { events := [.circle cell] }
  | settled {depth : Nat} {chain : List CellAddress} {cell : CellAddress} {m : Memory}
      {r : Except Failure Value} :
      cell ∉ chain → engine.holding cell = .result r →
      Runs engine (.cell depth chain cell) m r m {}
  | remembered {depth : Nat} {chain : List CellAddress} {cell : CellAddress} {m : Memory}
      {v : Value} :
      cell ∉ chain → m.values[cell]? = some v →
      Runs engine (.cell depth chain cell) m (.ok v) m {}
  | tooDeep {chain : List CellAddress} {cell : CellAddress} {m : Memory} {e : Formula.Expr}
      {formulas : TreeMap String Formula.Expr} :
      cell ∉ chain → engine.holding cell = .formula e → m.values[cell]? = none →
      Runs engine (.cell 0 chain cell) m (.error (.tooDeep engine.settings.maxDepth))
        { m with formulas } {}
  | computed {depth : Nat} {chain : List CellAddress} {cell : CellAddress} {m m' : Memory}
      {e : Formula.Expr} {formulas : TreeMap String Formula.Expr} {v : Value} {log : Log} :
      cell ∉ chain → engine.holding cell = .formula e → m.values[cell]? = none →
      Runs engine (.inquiry depth (cell :: chain) (some cell) (engine.inquiry chain cell e))
        (Memory.forget { m with formulas } cell) (.ok v) m' log →
      Runs engine (.cell (depth + 1) chain cell) m (.ok v)
        (m'.keep engine.settings.remember cell v)
        { events := log.events ++ [.computed cell v log.readings log.asked] }
  | failed {depth : Nat} {chain : List CellAddress} {cell : CellAddress} {m m' : Memory}
      {e : Formula.Expr} {formulas : TreeMap String Formula.Expr} {failure : Failure} {log : Log} :
      cell ∉ chain → engine.holding cell = .formula e → m.values[cell]? = none →
      Runs engine (.inquiry depth (cell :: chain) (some cell) (engine.inquiry chain cell e))
        (Memory.forget { m with formulas } cell) (.error failure) m' log →
      Runs engine (.cell (depth + 1) chain cell) m (.error failure) m' { events := log.events }
  | done {depth : Nat} {chain : List CellAddress} {reader : Option CellAddress} {m : Memory}
      {v : Value} :
      Runs engine (.inquiry depth chain reader (.done v)) m (.ok v) m {}
  | fail {depth : Nat} {chain : List CellAddress} {reader : Option CellAddress} {m : Memory}
      {failure : Failure} :
      Runs engine (.inquiry depth chain reader (.fail failure)) m (.error failure) m {}
  | note {depth : Nat} {chain : List CellAddress} {reader : Option CellAddress} {m m' : Memory}
      {r : Reading} {next : Inquiry Value} {s : Except Failure Value} {log : Log} :
      Runs engine (.inquiry depth chain reader next) (m.noted reader r) s m' log →
      Runs engine (.inquiry depth chain reader (.note r next)) m s m'
        { log with readings := r :: log.readings }
  | asked {depth : Nat} {chain : List CellAddress} {reader : Option CellAddress}
      {m m₁ m' : Memory} {c : CellAddress} {resume : Value → Inquiry Value} {v : Value}
      {s : Except Failure Value} {log₁ log : Log} :
      Runs engine (.cell depth chain c) m (.ok v) m₁ log₁ →
      Runs engine (.inquiry depth chain reader (resume v)) m₁ s m' log →
      Runs engine (.inquiry depth chain reader (.ask c resume)) m s m'
        { log with asked := c :: log.asked, events := log₁.events ++ log.events }
  | askFailed {depth : Nat} {chain : List CellAddress} {reader : Option CellAddress}
      {m m' : Memory} {c : CellAddress} {resume : Value → Inquiry Value} {failure : Failure}
      {log : Log} :
      Runs engine (.cell depth chain c) m (.error failure) m' log →
      Runs engine (.inquiry depth chain reader (.ask c resume)) m (.error failure) m'
        { asked := [c], events := log.events }

namespace Engine

variable {engine : Engine} {depth : Nat} {chain : List CellAddress} {cell : CellAddress}
  {m : Memory}

/-! ## What a visit finds -/

theorem formulasRead_empty : engine.FormulasRead {} := by
  intro text e h
  simp at h

theorem formula_on_of_read {text : String} {e : Formula.Expr} (hm : engine.FormulasRead m)
    (he : engine.registry.readFormula text = .ok e) :
    ∃ formulas, (engine.formula text).on m = (.ok e, { m with formulas }) ∧
      engine.FormulasRead { m with formulas } := by
  simp only [formula, Evaluation.on_bind_ok (Evaluation.on_get m)]
  cases hf : m.formulas[text]? with
  | some e' =>
      obtain rfl := Except.ok.inj ((hm text e' hf).symm.trans he)
      exact ⟨m.formulas, rfl, hm⟩
  | none =>
      refine ⟨m.formulas.insert text e, ?_, ?_⟩
      · simp [he, Evaluation.on_bind, Evaluation.on_map, Memory.learn, Except.map]
      · intro text' e' h
        rw [TreeMap.getElem?_insert] at h
        split at h
        · rename_i heq
          rw [LawfulEqCmp.compare_eq_iff_eq] at heq
          exact heq ▸ he.trans (congrArg Except.ok (Option.some.inj h))
        · exact hm text' e' h

theorem formula_on_of_error {text : String} {failure : Failure} (hm : engine.FormulasRead m)
    (he : engine.registry.readFormula text = .error failure) :
    (engine.formula text).on m = (.error failure, m) := by
  simp only [formula, Evaluation.on_bind_ok (Evaluation.on_get m)]
  cases hf : m.formulas[text]? with
  | some e' => rw [hm text e' hf] at he; cases he
  | none => simp [he, Evaluation.on_bind]

/-- What a visit finds is the circle, the settled result, the remembered value or the formula. -/
theorem find_on (chain : List CellAddress) (cell : CellAddress) (hm : engine.FormulasRead m) :
    (cell ∈ chain ∧ (engine.find chain cell).on m = (.ok (.value (.error .circular)), m)) ∨
    (cell ∉ chain ∧ ∃ r, engine.holding cell = .result r ∧
      (engine.find chain cell).on m = (r.map .value, m)) ∨
    (cell ∉ chain ∧ ∃ v, m.values[cell]? = some v ∧
      (engine.find chain cell).on m = (.ok (.value v), m)) ∨
    (cell ∉ chain ∧ m.values[cell]? = none ∧ ∃ e formulas, engine.holding cell = .formula e ∧
      (engine.find chain cell).on m = (.ok (.formula e), { m with formulas }) ∧
      engine.FormulasRead { m with formulas }) := by
  by_cases hc : cell ∈ chain
  · exact .inl ⟨hc, by simp [find, hc]⟩
  · refine .inr ?_
    simp only [hc, not_false_eq_true, true_and, find, if_false, holding]
    cases hr : engine.source.workbook.read cell with
    | error fault =>
        have hlift : (Evaluation.liftFault (.error fault : Except Fault CellContent)).on m =
            (.error (.model fault), m) := rfl
        exact .inl ⟨_, rfl, Evaluation.on_bind_error hlift⟩
    | ok content =>
        have hlift : (Evaluation.liftFault (.ok content : Except Fault CellContent)).on m =
            (.ok content, m) := rfl
        simp only [Evaluation.on_bind, hlift]
        cases hf : content.formula with
        | none => exact .inl ⟨_, rfl, rfl⟩
        | some text =>
            simp only [Evaluation.on_bind, Evaluation.on_get]
            -- the text is looked at only if no value is remembered
            cases hv : m.values[cell]? with
            | some v => exact .inr (.inl ⟨v, rfl, rfl⟩)
            | none =>
                cases he : engine.registry.readFormula text with
                | error failure =>
                    refine .inl ⟨_, rfl, ?_⟩
                    simp [Evaluation.on_map, formula_on_of_error hm he, Except.map]
                | ok e =>
                    obtain ⟨formulas, hon, hread⟩ := formula_on_of_read hm he
                    refine .inr (.inr ⟨rfl, e, formulas, rfl, ?_, hread⟩)
                    simp [Evaluation.on_map, hon, Except.map]

/-! ## Every computation is a run -/

/-- A visit is a run if every visit at the given depth below the given chain is. -/
def Visits (engine : Engine) (depth : Nat) (chain : List CellAddress) (cell : CellAddress)
    (m : Memory) : Prop :=
  ∃ r m', (engine.cellValue depth chain cell).on m = (r, m') ∧ engine.FormulasRead m' ∧
    Runs engine (.cell depth chain cell) m r m' { events := engine.events depth chain cell m }

theorem runs_inquiry (hvisit : ∀ c m, engine.FormulasRead m → engine.Visits depth chain c m)
    (reader : Option CellAddress) (q : Inquiry Value) (hm : engine.FormulasRead m) :
    ∃ r m', (q.run (recordFor reader) (engine.cellValue depth chain)).on m = (r, m') ∧
      engine.FormulasRead m' ∧
      Runs engine (.inquiry depth chain reader q) m r m'
        (q.log reader (engine.cellValue depth chain) (engine.events depth chain) m) := by
  induction q generalizing m with
  | done v => exact ⟨_, _, rfl, hm, .done⟩
  | fail failure => exact ⟨_, _, rfl, hm, .fail⟩
  | note r next ih =>
      have hnoted : engine.FormulasRead (m.noted reader r) := by
        cases reader <;> exact hm
      obtain ⟨s, m', hon, hm', hrun⟩ := ih hnoted
      refine ⟨s, m', ?_, hm', .note hrun⟩
      rw [Inquiry.run, Evaluation.on_bind_ok (recordFor_on reader r m), hon]
  | ask c resume ih =>
      obtain ⟨r₁, m₁, hon₁, hm₁, hrun₁⟩ := hvisit c m hm
      cases r₁ with
      | error failure =>
          refine ⟨.error failure, m₁, ?_, hm₁, ?_⟩
          · rw [Inquiry.run, Evaluation.on_bind_error hon₁]
          · simp only [Inquiry.log, hon₁]
            exact .askFailed hrun₁
      | ok v =>
          obtain ⟨s, m', hon, hm', hrun⟩ := ih v hm₁
          refine ⟨s, m', ?_, hm', ?_⟩
          · rw [Inquiry.run, Evaluation.on_bind_ok hon₁, hon]
          · simp only [Inquiry.log, hon₁]
            exact .asked hrun₁ hrun

/-- A visit that needs no computation is a run at any depth. -/
theorem visits_or_formula (depth : Nat) (chain : List CellAddress) (cell : CellAddress)
    (hm : engine.FormulasRead m) :
    engine.Visits depth chain cell m ∨
      (cell ∉ chain ∧ m.values[cell]? = none ∧ ∃ e formulas, engine.holding cell = .formula e ∧
        (engine.find chain cell).on m = (.ok (.formula e), { m with formulas }) ∧
        engine.FormulasRead { m with formulas }) := by
  obtain ⟨hc, hf⟩ | ⟨hc, r, hr, hf⟩ | ⟨hc, v, hv, hf⟩ | hformula :=
    find_on chain cell hm
  · refine .inl ⟨.ok (.error .circular), m, ?_, hm, ?_⟩
    · cases depth <;> exact Evaluation.on_bind_ok hf
    · have he : engine.events depth chain cell m = [.circle cell] := by
        cases depth <;> exact if_pos hc
      exact he ▸ .circle hc
  · refine .inl ⟨r, m, ?_, hm, ?_⟩
    · cases r with
      | error failure => cases depth <;> exact Evaluation.on_bind_error hf
      | ok v => cases depth <;> exact Evaluation.on_bind_ok hf
    · have he : engine.events depth chain cell m = [] := by
        cases depth <;> cases r <;> simp [events, hc, hf, Except.map]
      exact he ▸ .settled hc hr
  · refine .inl ⟨.ok v, m, ?_, hm, ?_⟩
    · cases depth <;> exact Evaluation.on_bind_ok hf
    · have he : engine.events depth chain cell m = [] := by
        cases depth <;> simp [events, hc, hf]
      exact he ▸ .remembered hc hv
  · exact .inr hformula

theorem visits (depth : Nat) (chain : List CellAddress) (cell : CellAddress)
    (hm : engine.FormulasRead m) : engine.Visits depth chain cell m := by
  induction depth generalizing chain cell m with
  | zero =>
      obtain h | ⟨hc, hv, e, formulas, he, hf, hread⟩ := visits_or_formula 0 chain cell hm
      · exact h
      · refine ⟨_, _, Evaluation.on_bind_ok hf, hread, ?_⟩
        rw [events, if_neg hc]
        exact .tooDeep hc he hv
  | succ depth ih =>
      obtain h | ⟨hc, hv, e, formulas, he, hf, hread⟩ :=
        visits_or_formula (depth + 1) chain cell hm
      · exact h
      · have hforget : engine.FormulasRead (Memory.forget { m with formulas } cell) := hread
        obtain ⟨s, m', hon, hm', hrun⟩ := runs_inquiry (fun c m hm => ih (cell :: chain) c hm)
          (some cell) (engine.inquiry chain cell e) hforget
        unfold Visits cellValue events
        rw [Evaluation.on_bind_ok hf, Evaluation.on_bind_ok (Evaluation.on_modify _ _), if_neg hc,
          hf]
        simp only [hon]
        cases s with
        | error failure =>
            exact ⟨_, _, Evaluation.on_bind_error hon, hm', .failed hc he hv hrun⟩
        | ok v =>
            refine ⟨.ok v, m'.keep engine.settings.remember cell v, ?_, ?_,
              .computed hc he hv hrun⟩
            · refine (Evaluation.on_bind_ok hon).trans ?_
              unfold Memory.keep
              split <;> rfl
            · unfold Memory.keep
              split <;> exact hm'

end Engine

end Spreadsheet
