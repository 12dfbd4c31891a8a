-- SUMMARY: The value of a cell by definition, computed afresh and without noticing circles.
import Spreadsheet.Evaluator
import Spreadsheet.Proofs.Inquiry

/-!
# Plain values

The plain value of a cell is what its formula comes to when every cell it asks for is
computed afresh. Nothing is remembered and no chain is kept: a bound on how deep formulas
are nested takes the place of both. A cell on a circle has no plain value at any bound.
-/

namespace Spreadsheet

/-- What a cell holds: a result that needs no computation, or a formula. -/
inductive Holding where
  | result (r : Except Failure Value)
  | formula (e : Formula.Expr)

namespace Engine

variable {engine : Engine}

def holding (engine : Engine) (cell : CellAddress) : Holding :=
  match engine.source.workbook.read cell with
  | .error fault => .result (.error (.model fault))
  | .ok content =>
    match content.formula with
    | none => .result (.ok (.scalar content.value))
    | some text =>
      match engine.registry.readFormula text with
      | .error failure => .result (.error failure)
      | .ok e => .formula e

theorem holding_eq_formula {cell : CellAddress} {e : Formula.Expr} :
    engine.holding cell = .formula e ↔ ∃ content text,
      engine.source.workbook.read cell = .ok content ∧ content.formula = some text ∧
        engine.registry.readFormula text = .ok e := by
  unfold holding
  cases engine.source.workbook.read cell with
  | error fault => simp
  | ok content =>
      cases hformula : content.formula with
      | none => simp [hformula]
      | some text => cases he : engine.registry.readFormula text <;> simp [hformula, he]

theorem read_of_holding {c : CellAddress} {e : Formula.Expr} (h : engine.holding c = .formula e) :
    ∃ content, engine.source.workbook.read c = .ok content := by
  obtain ⟨content, -, hread, -, -⟩ := holding_eq_formula.mp h
  exact ⟨content, hread⟩

/-- A value that needs no computation is stored without a formula. -/
theorem read_of_result {c : CellAddress} {v : Value}
    (h : engine.holding c = .result (.ok v)) :
    ∃ content, engine.source.workbook.read c = .ok content ∧ content.formula = none ∧
      v = .scalar content.value := by
  unfold holding at h
  split at h
  · cases h
  · rename_i content hread
    split at h
    · rename_i hnone
      cases h
      exact ⟨content, hread, hnone, rfl⟩
    · split at h <;> cases h

/-- The cell holds a formula that can be read. -/
def IsFormula (engine : Engine) (cell : CellAddress) : Prop :=
  ∃ e, engine.holding cell = .formula e

/-- The value of each cell whose formulas are nested at most `n` deep. -/
def plain (engine : Engine) : (n : Nat) → Answers
  | 0, cell =>
    match engine.holding cell with
    | .result r => some r
    | .formula _ => none
  | n + 1, cell =>
    match engine.holding cell with
    | .result r => some r
    | .formula e => (engine.inquiry [] cell e).evaluate (engine.plain n)

theorem plain_of_result {cell : CellAddress} {r : Except Failure Value}
    (h : engine.holding cell = .result r) (n : Nat) : engine.plain n cell = some r := by
  cases n <;> simp [plain, h]

theorem plain_zero {cell : CellAddress} {e : Formula.Expr}
    (h : engine.holding cell = .formula e) : engine.plain 0 cell = none := by
  simp [plain, h]

theorem plain_succ {cell : CellAddress} {e : Formula.Expr}
    (h : engine.holding cell = .formula e) (n : Nat) :
    engine.plain (n + 1) cell = (engine.inquiry [] cell e).evaluate (engine.plain n) := by
  simp [plain, h]

/-- Settings make no difference to plain values. -/
theorem plain_settings (engine : Engine) (settings : Settings) (n : Nat) :
    Engine.plain { engine with settings } n = engine.plain n := by
  induction n with
  | zero => rfl
  | succ n ih =>
      funext cell
      simp only [plain, ih]
      rfl

/-! ## Deeper bounds change nothing -/

theorem plain_succ_of_eq_some {n : Nat} {cell : CellAddress} {r : Except Failure Value}
    (h : engine.plain n cell = some r) : engine.plain (n + 1) cell = some r := by
  induction n generalizing cell r with
  | zero =>
      cases hc : engine.holding cell with
      | result r' => rw [plain_of_result hc] at h ⊢; exact h
      | formula e => rw [plain_zero hc] at h; cases h
  | succ n ih =>
      cases hc : engine.holding cell with
      | result r' => rw [plain_of_result hc] at h ⊢; exact h
      | formula e =>
          rw [plain_succ hc] at h ⊢
          rw [← h]
          refine (Inquiry.evaluate_congr fun c hasked => ?_).1
          obtain ⟨a, ha⟩ := Inquiry.exists_answer h hasked
          rw [ih ha, ha]

theorem plain_mono {n m : Nat} (hnm : n ≤ m) {cell : CellAddress} {r : Except Failure Value}
    (h : engine.plain n cell = some r) : engine.plain m cell = some r := by
  induction hnm with
  | refl => exact h
  | step _ ih => exact plain_succ_of_eq_some ih

theorem plain_none_of_le {n m : Nat} (hnm : n ≤ m) {cell : CellAddress}
    (h : engine.plain m cell = none) : engine.plain n cell = none := by
  cases hn : engine.plain n cell with
  | none => rfl
  | some r => rw [plain_mono hnm hn] at h; cases h

theorem plain_unique {n m : Nat} {cell : CellAddress} {r r' : Except Failure Value}
    (h : engine.plain n cell = some r) (h' : engine.plain m cell = some r') : r = r' := by
  have hn := plain_mono (Nat.le_max_left n m) h
  have hm := plain_mono (Nat.le_max_right n m) h'
  exact Option.some.inj (hn.symm.trans hm)

/-- An inquiry that comes to something at one bound takes the same path at all deeper ones. -/
theorem evaluate_plain_mono {α : Type} {q : Inquiry α} {n m : Nat} (hnm : n ≤ m)
    {r : Except Failure α} (h : q.evaluate (engine.plain n) = some r) :
    q.evaluate (engine.plain m) = some r ∧
      q.asked (engine.plain m) = q.asked (engine.plain n) ∧
      q.readings (engine.plain m) = q.readings (engine.plain n) := by
  rw [← h]
  refine Inquiry.evaluate_congr fun c hc => ?_
  obtain ⟨a, ha⟩ := Inquiry.exists_answer h hc
  rw [ha, plain_mono hnm ha]

/-! ## Computations -/

/-- The formula of the cell comes to `r`, notes `readings` and asks for `asked` when all it asks
for has its plain value. -/
def Computes (engine : Engine) (cell : CellAddress) (r : Except Failure Value)
    (readings : List Reading) (asked : List CellAddress) : Prop :=
  ∃ e n, engine.holding cell = .formula e ∧
    (engine.inquiry [] cell e).evaluate (engine.plain n) = some r ∧
    (engine.inquiry [] cell e).readings (engine.plain n) = readings ∧
    (engine.inquiry [] cell e).asked (engine.plain n) = asked

theorem Computes.plain {cell : CellAddress} {r : Except Failure Value}
    {readings : List Reading} {asked : List CellAddress}
    (h : engine.Computes cell r readings asked) : ∃ n, engine.plain n cell = some r := by
  obtain ⟨e, n, he, hr, -, -⟩ := h
  exact ⟨n + 1, (plain_succ he n).trans hr⟩

theorem Computes.unique {cell : CellAddress} {r r' : Except Failure Value}
    {readings readings' : List Reading} {asked asked' : List CellAddress}
    (h : engine.Computes cell r readings asked) (h' : engine.Computes cell r' readings' asked') :
    r = r' ∧ readings = readings' ∧ asked = asked' := by
  obtain ⟨e, n, he, hr, rfl, rfl⟩ := h
  obtain ⟨e', n', he', hr', rfl, rfl⟩ := h'
  cases Holding.formula.inj (he.symm.trans he')
  obtain ⟨h₁, h₂, h₃⟩ := evaluate_plain_mono (Nat.le_max_left n n') hr
  obtain ⟨h₁', h₂', h₃'⟩ := evaluate_plain_mono (Nat.le_max_right n n') hr'
  exact ⟨Option.some.inj (h₁.symm.trans h₁'), h₃.symm.trans h₃', h₂.symm.trans h₂'⟩

/-- A formula cell with a plain value has been computed from others at a smaller bound. -/
theorem exists_computes {n : Nat} {cell : CellAddress} {r : Except Failure Value}
    {e : Formula.Expr} (he : engine.holding cell = .formula e)
    (h : engine.plain n cell = some r) :
    ∃ k < n, (engine.inquiry [] cell e).evaluate (engine.plain k) = some r ∧
      engine.plain k cell = none := by
  induction n with
  | zero => rw [plain_zero he] at h; cases h
  | succ n ih =>
      cases hn : engine.plain n cell with
      | none => exact ⟨n, Nat.lt_succ_self n, (plain_succ he n).symm.trans h, hn⟩
      | some r' =>
          have hr : r' = r := plain_unique hn h
          obtain ⟨k, hk, hkr⟩ := ih (hn.trans (congrArg some hr))
          exact ⟨k, Nat.lt_succ_of_lt hk, hkr⟩

/-- The place of a formula in a chain makes no difference to what it computes. -/
def Uniform (engine : Engine) : Prop :=
  ∀ chain cell e, engine.inquiry chain cell e = engine.inquiry [] cell e

end Engine

end Spreadsheet
