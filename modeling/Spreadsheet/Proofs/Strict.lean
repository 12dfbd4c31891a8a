-- SUMMARY: Strict formulas show an error if their references lead into a circle, else no marker.
import Spreadsheet.Proofs.Contracts
import Spreadsheet.Proofs.Queries

/-!
# Circles of strict formulas

A formula is strict if operators build it from literals and single cells of its own sheet.
All that it refers to can be read off it, and errors pass through its operators. So a cell
shows an error if its references lead into a circle, and shows no marker of a circle if they
do not, whichever cells were asked for before and whatever is remembered of them.
-/

namespace Spreadsheet

open Relation

/-! ## Errors and operators -/

namespace Scalar

variable {s : Scalar}

/-- Where there is a circle the scalar is an error, and it is the marker of a circle only there. -/
structure Reports (circle : Prop) (s : Scalar) : Prop where
  isError : circle → s.isError
  circle : s = .error .circular → circle

theorem isError_iff : s.isError ↔ ∃ e, s = .error e := by
  cases s <;> simp [isError, error?]

theorem toNumber_eq_circular (h : s.toNumber = .error .circular) : s = .error .circular := by
  cases s with
  | text s =>
      simp only [toNumber] at h
      split at h <;> cases h
  | error e =>
      cases h
      rfl
  | _ => cases h

theorem toText_eq_circular (h : s.toText = .error .circular) : s = .error .circular := by
  cases s with
  | error e =>
      cases h
      rfl
  | _ => cases h

theorem ofResult_ne_circular (x : Float) : ofResult x ≠ .error .circular := by
  unfold ofResult
  split <;> simp

end Scalar

theorem Arithmetic.apply_ne_circular (op : Arithmetic) (x y : Float) :
    op.apply x y ≠ .error .circular := by
  unfold apply
  repeat' split
  all_goals first | exact Scalar.ofResult_ne_circular _ | simp

namespace UnaryOp

variable {op : UnaryOp} {s : Scalar} {p : Prop}

/-- An operator passes on what its operand reports. -/
theorem reports_onScalar (hs : s.Reports p) : (op.onScalar s).Reports p where
  isError hp := by
    obtain ⟨e, rfl⟩ := Scalar.isError_iff.mp (hs.isError hp)
    rfl
  circle h := by
    unfold onScalar at h
    split at h
    · cases h
    · rename_i e he
      cases h
      exact hs.circle (Scalar.toNumber_eq_circular he)

end UnaryOp

namespace BinaryOp

variable {op : BinaryOp} {l r : Scalar} {p q : Prop}

theorem isError_onScalars (h : l.isError ∨ r.isError) : (op.onScalars l r).isError := by
  obtain ⟨e, he⟩ : ∃ e, l = .error e ∨ r = .error e := by
    rw [Scalar.isError_iff, Scalar.isError_iff] at h
    exact exists_or.mpr h
  refine Scalar.isError_iff.mpr ?_
  cases op with
  | arithmetic op =>
      obtain rfl | rfl := he
      · exact ⟨e, rfl⟩
      · unfold onScalars
        cases hl : l.toNumber with
        | ok x => exact ⟨e, by simp [Scalar.toNumber]⟩
        | error e' => exact ⟨e', rfl⟩
  | comparison op =>
      obtain rfl | rfl := he
      · exact ⟨e, rfl⟩
      · unfold onScalars
        cases hl : l.error? with
        | none => exact ⟨e, rfl⟩
        | some e' => exact ⟨e', rfl⟩
  | concat =>
      obtain rfl | rfl := he
      · exact ⟨e, rfl⟩
      · unfold onScalars
        cases hl : l.toText with
        | ok x => exact ⟨e, by simp [Scalar.toText]⟩
        | error e' => exact ⟨e', rfl⟩
  | range => exact ⟨_, rfl⟩

theorem eq_circular_of_onScalars (h : op.onScalars l r = .error .circular) :
    l = .error .circular ∨ r = .error .circular := by
  cases op with
  | arithmetic op =>
      simp only [onScalars] at h
      split at h
      · exact absurd h (op.apply_ne_circular _ _)
      · rename_i hl
        cases h
        exact .inl (Scalar.toNumber_eq_circular hl)
      · rename_i hr _
        cases h
        exact .inr (Scalar.toNumber_eq_circular hr)
  | comparison op =>
      cases l with
      | error e =>
          cases h
          exact .inl rfl
      | _ =>
          cases r with
          | error e =>
              cases h
              exact .inr rfl
          | _ => cases h
  | concat =>
      simp only [onScalars] at h
      split at h
      · cases h
      · rename_i hl
        cases h
        exact .inl (Scalar.toText_eq_circular hl)
      · rename_i hr _
        cases h
        exact .inr (Scalar.toText_eq_circular hr)
  | range => cases h

theorem reports_onScalars (hl : l.Reports p) (hr : r.Reports q) :
    (op.onScalars l r).Reports (p ∨ q) where
  isError h := isError_onScalars (h.imp hl.isError hr.isError)
  circle h := (eq_circular_of_onScalars h).imp hl.circle hr.circle

end BinaryOp

/-! ## Strict expressions -/

namespace Formula.Expr

variable {registry : Registry} {site : Site} {e l r : Expr} {sheet : String} {c : CellAddress}

/-- The expression is built by operators on values from literals and single cells of its own
sheet. -/
inductive Strict : Expr → Prop where
  | literal (s : Scalar) : Strict (.literal s)
  | cell (coord : Coord) : Strict (.cell none coord)
  | unary {op : UnaryOp} {e : Expr} : Strict e → Strict (.unary op e)
  | binary {op : BinaryOp} {l r : Expr} :
      op ≠ .range → Strict l → Strict r → Strict (.binary op l r)

/-- The expression, on the sheet, has a reference to the single cell. -/
def RefersTo (e : Expr) (sheet : String) (c : CellAddress) : Prop :=
  ∃ coord, .cell none coord ∈ e.nodes ∧ c = coord.on sheet

@[simp] theorem refersTo_literal (s : Scalar) : ¬ (literal s).RefersTo sheet c := by
  simp [RefersTo, nodes]

@[simp] theorem refersTo_cell (coord : Coord) :
    (cell none coord).RefersTo sheet c ↔ c = coord.on sheet := by
  simp [RefersTo, nodes]

@[simp] theorem refersTo_unary (op : UnaryOp) :
    (unary op e).RefersTo sheet c ↔ e.RefersTo sheet c := by
  simp [RefersTo, nodes]

@[simp] theorem refersTo_binary (op : BinaryOp) :
    (binary op l r).RefersTo sheet c ↔ l.RefersTo sheet c ∨ r.RefersTo sheet c := by
  simp [RefersTo, nodes, or_and_right, exists_or]

theorem value_unary (op : UnaryOp) :
    (unary op e).value registry site =
      (e.value registry site).bind fun v => .done (op.onValue v) := by
  simp only [value, operand, Inquiry.bind_assoc]
  rfl

theorem value_binary {op : BinaryOp} (hop : op ≠ .range) :
    (binary op l r).value registry site =
      (l.value registry site).bind fun v => (r.value registry site).bind fun w =>
        .done (op.onValues v w) := by
  rw [value, operand_binary hop]
  simp only [Inquiry.bind_assoc]
  rfl

theorem value_cell (coord : Coord) :
    (Expr.cell none coord).value registry site = Site.readCell (coord.on site.cell.sheet) := by
  have hsingle : (Area.ofCell (coord.on site.cell.sheet)).isSingleCell := by
    simp [Area.isSingleCell, Area.ofCell]
  exact if_pos hsingle

/-- A strict expression asks for the cells that it refers to and comes to a scalar. If each of them
reports whether `circle` holds of it, the scalar reports whether it holds of any of them. -/
theorem Strict.meets {contract : Contract} {circle : CellAddress → Prop} (he : e.Strict)
    (hwritten : e.Written) (hnotes : ∀ r, contract.notes r)
    (hasks : ∀ c, e.RefersTo site.cell.sheet c → contract.asks c)
    (hfits : ∀ c v, e.RefersTo site.cell.sheet c → contract.fits c v →
      v.toScalar.Reports (circle c)) :
    (e.value registry site).Meets contract fun v =>
      ∃ s, v = .scalar s ∧ s.Reports (∃ c, e.RefersTo site.cell.sheet c ∧ circle c) := by
  induction he with
  | literal s =>
      refine ⟨s, rfl, fun ⟨c, hc, _⟩ => (refersTo_literal s hc).elim, fun hs => ?_⟩
      exact (hwritten _ List.mem_cons_self hs).elim
  | cell coord =>
      rw [value_cell]
      have hcell : (Expr.cell none coord).RefersTo site.cell.sheet (coord.on site.cell.sheet) :=
        (refersTo_cell coord).mpr rfl
      refine ⟨hnotes _, hasks _ hcell, fun v hv => ⟨v.toScalar, rfl, ?_⟩⟩
      simpa using hfits _ v hcell hv
  | @unary op e _ ih =>
      simp only [refersTo_unary] at hasks hfits ⊢
      rw [value_unary]
      refine (ih (fun node h => hwritten node (List.mem_cons_of_mem _ h)) hasks hfits).bind ?_
      rintro _ ⟨s, rfl, hs⟩
      exact ⟨_, rfl, UnaryOp.reports_onScalar hs⟩
  | @binary op l r hop _ _ ihl ihr =>
      simp only [refersTo_binary, or_and_right, exists_or] at hasks hfits ⊢
      rw [value_binary hop]
      have hwrittens := List.forall_mem_append.mp fun node h =>
        hwritten node (List.mem_cons_of_mem _ h)
      refine (ihl hwrittens.1 (fun c hc => hasks c (.inl hc))
        fun c v hc => hfits c v (.inl hc)).bind ?_
      rintro _ ⟨s, rfl, hs⟩
      refine (ihr hwrittens.2 (fun c hc => hasks c (.inr hc))
        fun c v hc => hfits c v (.inr hc)).bind ?_
      rintro _ ⟨t, rfl, ht⟩
      exact ⟨_, rfl, BinaryOp.reports_onScalars hs ht⟩

end Formula.Expr

/-! ## The graph of references -/

namespace Engine

variable {engine : Engine} {c : CellAddress}

/-- The formula of the first cell refers to the second. -/
def Refers (engine : Engine) (x y : CellAddress) : Prop :=
  ∃ e, engine.holding x = .formula e ∧ e.RefersTo x.sheet y

/-- The references of the cell, followed on and on, lead into a circle. -/
def LeadsToCircle (engine : Engine) (c : CellAddress) : Prop :=
  ∃ d, ReflTransGen engine.Refers c d ∧ TransGen engine.Refers d d

theorem leadsToCircle_iff :
    engine.LeadsToCircle c ↔ ∃ d, engine.Refers c d ∧ engine.LeadsToCircle d := by
  constructor
  · rintro ⟨d, hcd, hcircle⟩
    obtain rfl | ⟨b, hcb, hbd⟩ := hcd.cases_head
    · obtain ⟨b, hcb, hbc⟩ := TransGen.head'_iff.mp hcircle
      exact ⟨b, hcb, c, hbc, hcircle⟩
    · exact ⟨b, hcb, d, hbd, hcircle⟩
  · rintro ⟨b, hcb, d, hbd, hcircle⟩
    exact ⟨d, .head hcb hbd, hcircle⟩

theorem not_leadsToCircle {r : Except Failure Value} (hr : engine.holding c = .result r) :
    ¬ engine.LeadsToCircle c := by
  rintro h
  obtain ⟨d, ⟨e, he, -⟩, -⟩ := leadsToCircle_iff.mp h
  rw [hr] at he
  cases he

/-- Each cell comes to a scalar that reports whether its references lead into a circle. -/
def reports (engine : Engine) : Expectation where
  refers := engine.Refers
  fits c v := ∃ s, v = .scalar s ∧ s.Reports (engine.LeadsToCircle c)

theorem fulfils_reports (hstrict : ∀ c e, engine.holding c = .formula e → e.Strict)
    (hvalues : ∀ c content, engine.source.workbook.read c = .ok content →
      content.formula = none → content.value ≠ .error .circular) :
    engine.Fulfils engine.reports where
  tooDeep := trivial
  settled c r _ hr := by
    cases r with
    | error failure => trivial
    | ok v =>
        obtain ⟨content, hread, hnone, rfl⟩ := read_of_result hr
        refine ⟨_, rfl, fun h => (not_leadsToCircle hr h).elim, fun hs => ?_⟩
        exact (hvalues c content hread hnone hs).elim
  formula chain x e _ he hchain := by
    obtain ⟨text, hread⟩ := readFormula_of_holding he
    have hrefers (c : CellAddress) (hc : e.RefersTo x.sheet c) : engine.Refers x c := ⟨e, he, hc⟩
    have hcircle : (∃ c, e.RefersTo x.sheet c ∧ engine.LeadsToCircle c) ↔
        engine.LeadsToCircle x := by
      refine ⟨fun ⟨c, hc, h⟩ => leadsToCircle_iff.mpr ⟨c, hrefers c hc, h⟩, fun h => ?_⟩
      obtain ⟨c, ⟨e', he', hc⟩, h⟩ := leadsToCircle_iff.mp h
      cases Holding.formula.inj (he.symm.trans he')
      exact ⟨c, hc, h⟩
    have hasks (c : CellAddress) (hc : e.RefersTo x.sheet c) :
        (engine.reports.contract chain x).asks c := ⟨trivial, hrefers c hc⟩
    have hfits (c : CellAddress) (v : Value) (hc : e.RefersTo x.sheet c)
        (hv : (engine.reports.contract chain x).fits c v) :
        v.toScalar.Reports (engine.LeadsToCircle c) := by
      obtain ⟨hmem, rfl⟩ | ⟨-, s, rfl, hs⟩ := hv
      · -- the cells under computation lead to the formula, so it is on a circle with them
        have hback : ReflTransGen engine.Refers c x :=
          (List.mem_cons.mp hmem).elim (fun h => h ▸ .refl) (hchain c)
        exact ⟨fun _ => rfl, fun _ => ⟨c, .refl, .tail' hback (hrefers c hc)⟩⟩
      · exact hs
    have hmeets : (e.value engine.registry ⟨engine.source, x, chain.length + 1⟩).Meets
        (engine.reports.contract chain x) _ :=
      (hstrict x e he).meets (Registry.written_of_readFormula hread) (fun _ => trivial) hasks hfits
    refine hmeets.mono (.refl _) ?_
    rintro _ ⟨s, rfl, hs⟩
    exact ⟨s, rfl, fun h => hs.isError (hcircle.mpr h), fun h => hcircle.mp (hs.circle h)⟩

end Engine

namespace Evaluator

open Engine Workbook

variable {ev : Evaluator} {engine : Engine} {x : Expectation}

section

variable (hengine : engine.Fulfils x) (hcells : ∀ c, x.cells c) (hfails : ∀ failure, x.fails failure)
include hengine hcells hfails

/-- Where anything may be asked for and may fail, a query leaves only what fits remembered. -/
theorem remembered_reply (hev : ev.toEngine = engine) (hread : ev.FormulasRead ev.memory)
    (hm : x.Remembered ev.memory) (query : Query) : x.Remembered (ev.reply query).2.memory := by
  subst hev
  cases hq : query.inquiry ev.toEngine with
  | error failure =>
      obtain ⟨formulas, hreply, -, -⟩ := reply_error hread hq
      rw [hreply]
      exact hm
  | ok q =>
      have hmeets : q.Meets (x.below []) fun _ => True := by
        refine Inquiry.meets_of_any (fun _ => trivial) (fun c => ?_) hfails q
        exact ⟨hcells c, List.forall_mem_nil _⟩
      exact (reply_fulfils hengine hread hm hq hmeets).1

theorem remembered_queried (hev : ev.toEngine = engine) (hread : ev.FormulasRead ev.memory)
    (hm : x.Remembered ev.memory) (queries : List Query) :
    (ev.queried queries).toEngine = engine ∧
      (ev.queried queries).FormulasRead (ev.queried queries).memory ∧
      x.Remembered (ev.queried queries).memory := by
  induction queries generalizing ev with
  | nil => exact ⟨hev, hread, hm⟩
  | cons query queries ih =>
      exact ih ((toEngine_reply ev query).trans hev) (step_apply hread (.ask query)).2
        (remembered_reply hengine hcells hfails hev hread hm query)

end

/-- **Circles are found, and nothing else is.** Where all formulas are strict and no marker of a
circle is stored, take any queries on a fresh evaluator, failed ones included. The value that it
then gives a cell is an error if the cell's references lead into a circle, and it is not the marker
of a circle if they do not. -/
theorem evaluate_reports_circle (hstrict : ∀ c e, engine.holding c = .formula e → e.Strict)
    (hvalues : ∀ c content, engine.source.workbook.read c = .ok content →
      content.formula = none → content.value ≠ .error .circular)
    (queries : List Query) {cell : CellAddress} {v : Value}
    (h : (((fresh engine).queried queries).evaluate cell).1 = .ok v) :
    ∃ x, engine.source.canonical cell = .ok x ∧
      (engine.LeadsToCircle x → ∃ e, v = .error e) ∧
      (¬ engine.LeadsToCircle x → v ≠ .error .circular) := by
  have hfulfils := fulfils_reports hstrict hvalues
  obtain ⟨hengine, hread, hm⟩ := remembered_queried hfulfils (fun _ => trivial) (fun _ => trivial)
    rfl formulasRead_empty (remembered_fresh engine _) queries
  generalize (fresh engine).queried queries = ev at h hengine hread hm
  subst hengine
  cases hcell : ev.source.canonical cell with
  | error fault =>
      have hq : Query.inquiry ev.toEngine (.cell cell) = .error (.model fault) := by
        simp only [Query.inquiry, hcell]
        rfl
      obtain ⟨formulas, hreply, -, -⟩ := reply_error hread hq
      have hreply : ev.evaluate cell = _ := hreply
      rw [hreply] at h
      cases h
  | ok x =>
      have houtcome := (evaluate_fulfils hfulfils hread hm hcell trivial).2
      rw [h] at houtcome
      obtain ⟨s, rfl, hs⟩ := houtcome
      refine ⟨x, rfl, fun hcircle => ?_, ?_⟩
      · obtain ⟨e, rfl⟩ := Scalar.isError_iff.mp (hs.isError hcircle)
        exact ⟨e, rfl⟩
      · intro hnot hv
        exact hnot (hs.circle (Value.scalar.inj hv))

/-- The second cell of the row, negated. -/
def negatedSecond : Formula.Expr := .unary .negate (.cell none { row := 1, col := 2 })

set_option maxRecDepth 4000 in
theorem readFormula_negatedSecond :
    Registry.builtins.readFormula "-B1" = .ok negatedSecond := by decide +kernel

set_option maxRecDepth 4000 in
theorem evaluate_reports_circle_pair :
    (Engine.pair true "-B1").LeadsToCircle pairFormula ∧
      ∃ v, (((fresh (.pair true "-B1")).queried [.cell pairValue]).evaluate pairFormula).1 =
        .ok v ∧ ∃ e, v = .error e := by
  have hbook : (Engine.pair true "-B1").source.workbook = .pair true "-B1" := rfl
  have hstrict (c : CellAddress) (e : Formula.Expr)
      (he : (Engine.pair true "-B1").holding c = .formula e) : e.Strict := by
    obtain ⟨-, -, rfl⟩ := holding_pair hbook readFormula_negatedSecond he
    exact .unary (.cell _)
  have hvalues (c : CellAddress) (content : CellContent)
      (hread : (Workbook.pair true "-B1").read c = .ok content) (_ : content.formula = none) :
      content.value ≠ .error .circular := by
    obtain hvalue | hvalue := value_pair hread <;> simp [hvalue]
  have hholding : (Engine.pair true "-B1").holding pairFormula = .formula negatedSecond :=
    holding_eq_formula.mpr ⟨_, _, rfl, rfl, readFormula_negatedSecond⟩
  have hrefers : (Engine.pair true "-B1").Refers pairFormula pairFormula :=
    ⟨negatedSecond, hholding, by simp [negatedSecond, pairFormula, Coord.on]⟩
  have hcircle : (Engine.pair true "-B1").LeadsToCircle pairFormula :=
    ⟨pairFormula, .refl, .single hrefers⟩
  have hevaluate : (((fresh (.pair true "-B1")).queried [.cell pairValue]).evaluate
      pairFormula).1 = .ok (.error .circular) := by decide +kernel
  obtain ⟨x, hx, herror, -⟩ := evaluate_reports_circle hstrict hvalues [.cell pairValue] hevaluate
  have hfirst : (Engine.pair true "-B1").source.canonical pairFormula = .ok pairFormula := rfl
  obtain rfl := Except.ok.inj (hx.symm.trans hfirst)
  exact ⟨hcircle, _, hevaluate, herror hcircle⟩

end Evaluator

end Spreadsheet
