-- SUMMARY: How formulas and their inquiries can fail, which is never that they are nested too deep.
import Spreadsheet.Proofs.Contracts

/-!
# Failures that are not of depth

What a formula inquires can fail because a call has a wrong number of arguments or a function gives
up, and what is found of a cell can fail because the cell or its formula cannot be read. A formula
cannot tell how deep it is nested. That formulas are nested too deep is left to the evaluator to say.
-/

namespace Spreadsheet

open Std Evaluation

/-- The failure is another one than that formulas are nested too deep. -/
def Failure.Shallow (failure : Failure) : Prop := ∀ limit, failure ≠ .tooDeep limit

/-- The cell holds a formula. -/
def Workbook.HasFormula (book : Workbook) (cell : CellAddress) : Prop :=
  ∃ content text, book.read cell = .ok content ∧ content.formula = some text

/-! ## Inquiries -/

/-- A call of a wrong number of arguments fails in no other way. -/
theorem Function.of_checkCount {fails : Failure → Prop} {f : Function} {count : Nat}
    {failure : Failure}
    (hcount : ∀ function least most given, fails (.argumentCount function least most given))
    (h : f.checkCount count = .error failure) : fails failure := by
  unfold checkCount at h
  split at h
  · cases h
  · cases h
    exact hcount _ _ _ _

/-- Whatever it is answered, the inquiry fails only in ways of the kind. -/
def Inquiry.FailsOnly {α : Type} (fails : Failure → Prop) (q : Inquiry α) : Prop :=
  q.Meets { fails } fun _ => True

/-- Whatever it is answered, the inquiry has no failure of depth. -/
def Inquiry.Shallow {α : Type} (q : Inquiry α) : Prop :=
  q.Meets { fails := Failure.Shallow } fun _ => True

namespace Inquiry.FailsOnly

variable {α β : Type} {fails : Failure → Prop} {q : Inquiry α} {f : α → Inquiry β} {site : Site}

theorem done (a : α) : (Inquiry.done a).FailsOnly fails := trivial

theorem bind (hq : q.FailsOnly fails) (hf : ∀ a, (f a).FailsOnly fails) :
    (q.bind f).FailsOnly fails :=
  Meets.bind hq fun a _ => hf a

theorem readArea (site : Site) (area : Area) : (site.readArea area).FailsOnly fails :=
  Site.meets_readArea (fun _ _ => trivial) fun _ _ _ => trivial

theorem readUsed (site : Site) (area : Area) : (site.readUsed area).FailsOnly fails :=
  Site.meets_readUsed (fun _ _ => trivial) fun _ _ _ => trivial

theorem read (site : Site) (o : Operand) : (site.read o).FailsOnly fails := by
  cases o with
  | value v => exact done v
  | reference r =>
      unfold Site.read
      dsimp only
      split
      · exact readArea site _
      · exact done _

theorem readAllUsed (site : Site) (areas : List Area) :
    (site.readAllUsed areas).FailsOnly fails := by
  induction areas with
  | nil => exact done _
  | cons area areas ih =>
      exact bind (readUsed site area) fun t => bind ih fun ts => done _

theorem prepareScalar {α : Type} (site : Site) (convert : Scalar → Except ErrorValue α)
    (result : α → Value) (o : Operand) : (site.prepareScalar convert result o).FailsOnly fails :=
  bind (read site o) fun _ => done _

theorem prepare (site : Site) (kind : ParamKind) {operand : Unit → Inquiry Operand}
    (ho : (operand ()).FailsOnly fails) : (site.prepare kind operand).FailsOnly fails := by
  cases kind with
  | any => exact bind ho fun o => bind (read site o) fun v => done _
  | number | text | bool => exact bind ho (prepareScalar site _ _)
  | areas =>
      refine bind ho fun o => ?_
      split
      · exact bind (readAllUsed site _) fun ts => done _
      · exact done _
      · exact done _
  | reference =>
      refine bind ho fun o => ?_
      split <;> exact done _
  | lazy => exact done _

theorem call {f : Function} (habort : f.implementation = .abort → fails .aborted) (site : Site)
    (args : List Argument) {expression : Nat → Inquiry Value}
    (hexpression : ∀ i, (expression i).FailsOnly fails) :
    (f.call site args expression).FailsOnly fails := by
  unfold Function.call
  split
  · exact done _
  · split
    · exact done _
    · refine bind ?_ fun v => done _
      unfold Argument.forced
      split
      · exact hexpression _
      · exact done _
      · exact done _
  · exact done _
  · rename_i himplementation
    exact habort himplementation

end Inquiry.FailsOnly

theorem Inquiry.Shallow.readArea (site : Site) (area : Area) : (site.readArea area).Shallow :=
  FailsOnly.readArea site area

namespace Formula.Expr

open Inquiry

set_option linter.unusedSectionVars false

variable {registry : Registry} {site : Site} {fails : Failure → Prop}
  (hcount : ∀ function least most given, fails (.argumentCount function least most given))
  (habort : registry.GivesUp fails)
include hcount habort

mutual

theorem failsOnly_operand (e : Expr) : (e.operand registry site).FailsOnly fails := by
  match e with
  | .literal _ | .table _ | .cell _ _ | .area _ _ | .name _ => exact .done _
  | .unary op e =>
      exact (failsOnly_operand e).bind fun o => (FailsOnly.read site o).bind fun v => .done _
  | .binary .range l r =>
      exact (failsOnly_operand l).bind fun a => (failsOnly_operand r).bind fun b => .done _
  | .binary (.comparison _) l r | .binary .concat l r | .binary (.arithmetic _) l r =>
      exact (failsOnly_operand l).bind fun a => (FailsOnly.read site a).bind fun v =>
        (failsOnly_operand r).bind fun b => (FailsOnly.read site b).bind fun w => .done _
  | .union items => exact failsOnly_areasOf items []
  | .call function es =>
      unfold operand
      cases hf : registry.get? function with
      | none => exact .done _
      | some f =>
          dsimp only
          cases hchecked : f.checkCount es.length with
          | error failure => exact Function.of_checkCount hcount hchecked
          | ok _ =>
              refine (failsOnly_argumentsOf f 0 es).bind fun args => ?_
              split
              · exact .done _
              · exact .call (habort f (List.mem_of_find?_eq_some hf)) site _
                  fun i => failsOnly_valueAt i es

theorem failsOnly_areasOf (es : List Expr) (areas : List Area) :
    (areasOf registry site es areas).FailsOnly fails := by
  match es with
  | [] => exact .done _
  | e :: es =>
      refine (failsOnly_operand e).bind fun o => ?_
      split
      · exact failsOnly_areasOf es _
      · exact .done _
      · exact .done _

theorem failsOnly_argumentsOf (f : Function) (index : Nat) (es : List Expr) :
    (argumentsOf registry site f index es).FailsOnly fails := by
  match es with
  | [] => exact .done _
  | e :: es =>
      refine (FailsOnly.prepare site (f.paramKind index) (failsOnly_operand e)).bind fun arg => ?_
      split
      · exact .done _
      · exact (failsOnly_argumentsOf f (index + 1) es).bind fun args => .done _

theorem failsOnly_valueAt (index : Nat) (es : List Expr) :
    (valueAt registry site index es).FailsOnly fails := by
  match index, es with
  | _, [] => exact .done _
  | 0, e :: es => exact (failsOnly_operand e).bind fun o => .read site o
  | index + 1, e :: es => exact failsOnly_valueAt index es

end

/-- What an expression inquires fails in two ways only: a call has a wrong number of arguments, or
a function gives up. -/
theorem failsOnly_value (e : Expr) : (e.value registry site).FailsOnly fails :=
  (failsOnly_operand hcount habort e).bind fun o => .read site o

omit hcount habort in
theorem shallow_value (e : Expr) : (e.value registry site).Shallow := by
  have habort : registry.GivesUp Failure.Shallow := fun _ _ _ _ => nofun
  exact failsOnly_value (fun _ _ _ _ _ => nofun) habort e

end Formula.Expr

/-! ## What is found of a cell -/

/-- A formula that is not read is malformed, or a call in it has a wrong number of arguments. -/
theorem Registry.of_readFormula {registry : Registry} {fails : Failure → Prop} {text : String}
    {failure : Failure} (hmalformed : ∀ formula, fails (.malformed formula))
    (hcount : ∀ function least most given, fails (.argumentCount function least most given))
    (h : registry.readFormula text = .error failure) : fails failure := by
  unfold readFormula at h
  cases hread : Formula.Expr.ofText text with
  | error malformed =>
      rw [hread] at h
      cases h
      exact hmalformed malformed
  | ok e =>
      rw [hread] at h
      dsimp only [Except.mapError, bind, Except.bind] at h
      split at h
      · rename_i failure' hfailure
        cases h
        obtain ⟨node, -, hcall⟩ := List.exists_of_findSome?_eq_some hfailure
        unfold callFailure? at hcall
        split at hcall
        · split at hcall
          · cases hcall
          · split at hcall
            · cases hcall
            · rename_i failure'' hcheck
              cases hcall
              exact Function.of_checkCount hcount hcheck
        · cases hcall
      · cases h

theorem Registry.shallow_of_readFormula {registry : Registry} {text : String} {failure : Failure}
    (h : registry.readFormula text = .error failure) : failure.Shallow :=
  of_readFormula (fun _ _ => nofun) (fun _ _ _ _ _ => nofun) h

namespace Engine

variable {engine : Engine}

/-- A formula is read, or it fails to be read, though not of depth. -/
theorem formula_on_cases (text : String) (m : Memory) :
    (∃ e m', (engine.formula text).on m = (.ok e, m')) ∨
      ∃ failure, failure.Shallow ∧ (engine.formula text).on m = (.error failure, m) := by
  simp only [formula, on_bind_ok (on_get m)]
  cases m.formulas[text]? with
  | some e => exact .inl ⟨e, m, rfl⟩
  | none =>
      cases he : engine.registry.readFormula text with
      | error failure => exact .inr ⟨failure, Registry.shallow_of_readFormula he, by simp [on_bind]⟩
      | ok e => exact .inl ⟨e, m.learn text e, by simp [on_bind, on_map, Except.map]⟩

/-- Of a cell that is not in progress a result is found, or the formula that it holds. -/
theorem find_cases (cell : CellAddress) (m : Memory) :
    (∃ (r : Except Failure Value) (m' : Memory), (engine.find [] cell).on m = (r.map .value, m') ∧
        ∀ failure, r = .error failure → failure.Shallow) ∨
      engine.source.workbook.HasFormula cell ∧
        ∃ e m', (engine.find [] cell).on m = (.ok (.formula e), m') := by
  unfold find
  rw [if_neg List.not_mem_nil]
  cases hread : engine.source.workbook.read cell with
  | error fault =>
      refine .inl ⟨.error (.model fault), m, rfl, ?_⟩
      rintro _ ⟨⟩
      exact nofun
  | ok content =>
      have hlift : (liftFault (.ok content : Except Fault CellContent)).on m = (.ok content, m) :=
        rfl
      rw [on_bind_ok hlift]
      cases hformula : content.formula with
      | none => exact .inl ⟨.ok (.scalar content.value), m, rfl, nofun⟩
      | some text =>
          dsimp only
          rw [on_bind_ok (on_get m)]
          cases hvalue : m.values[cell]? with
          | some v => exact .inl ⟨.ok v, m, rfl, nofun⟩
          | none =>
              obtain ⟨e, m', he⟩ | ⟨failure, hshallow, he⟩ :=
                @formula_on_cases engine text m
              · exact .inr ⟨⟨content, text, hread, hformula⟩, e, m', on_bind_ok he⟩
              · refine .inl ⟨.error failure, m, on_bind_error he, ?_⟩
                rintro _ ⟨⟩
                exact hshallow

end Engine

end Spreadsheet
