-- SUMMARY: What came to a value comes to it again, however much more is remembered.
import Spreadsheet.Proofs.Runs

/-!
# Asking again

What came to a value comes to it again, below the same cells and with the same depth, from any
memory that has all values the first run left. Where values are remembered, whatever the first run
computed is found there. Where they are not, no value is ever added, and the second run repeats the
first one step by step. Circles make no difference to this.
-/

namespace Spreadsheet

open Std

/-- The computation whose runs are those of the task. -/
def Task.evaluation (engine : Engine) : Task → Evaluation Value
  | .cell depth chain c => engine.cellValue depth chain c
  | .inquiry depth chain reader q =>
    q.run (Engine.recordFor reader) (engine.cellValue depth chain)

namespace Engine

variable {engine : Engine} {m m' M : Memory} {task : Task} {v w : Value}

/-! ## Later memories -/

/-- Formulas have been read as the registry reads them, and only formula cells have a value. -/
structure Fits (engine : Engine) (m : Memory) : Prop where
  formulas : engine.FormulasRead m
  isFormula : ∀ c, m.Remembers c → engine.IsFormula c

/-- The second memory has the values of the first one. It has no others if none are kept. -/
structure Later (engine : Engine) (m m' : Memory) : Prop where
  grows : ∀ (c : CellAddress) (v : Value), m.values[c]? = some v → m'.values[c]? = some v
  same : engine.settings.remember = false → ∀ c : CellAddress, m'.values[c]? = m.values[c]?

/-- From the memory and from all later ones the task comes to the value. -/
def Repeats (engine : Engine) (task : Task) (m : Memory) (v : Value) : Prop :=
  ∀ M, engine.Fits M → engine.Later m M →
    ∃ M', (task.evaluation engine).on M = (.ok v, M') ∧ engine.Fits M' ∧ engine.Later M M'

theorem Fits.noted (hm : engine.Fits m) (reader : Option CellAddress) (r : Reading) :
    engine.Fits (m.noted reader r) where
  formulas := by cases reader <;> exact hm.formulas
  isFormula c hc := hm.isFormula c (Memory.remembers_noted.mp hc)

theorem Later.of_values (h : m'.values = m.values) : engine.Later m m' :=
  ⟨fun _ _ hv => h ▸ hv, fun _ _ => by rw [h]⟩

theorem Later.refl (engine : Engine) (m : Memory) : engine.Later m m := .of_values rfl

theorem Later.trans (h : engine.Later m m') (h' : engine.Later m' M) : engine.Later m M where
  grows c v hv := h'.grows c v (h.grows c v hv)
  same hremember c := (h'.same hremember c).trans (h.same hremember c)

theorem Repeats.later (h : engine.Repeats task m v) (hlater : engine.Later m m') :
    engine.Repeats task m' v :=
  fun M hM hm' => h M hM (hlater.trans hm')

theorem Repeats.unique (h : engine.Repeats task m v) (h' : engine.Repeats task m w)
    (hm : engine.Fits m) : v = w := by
  obtain ⟨_, hon, -, -⟩ := h m hm (.refl engine m)
  obtain ⟨_, hon', -, -⟩ := h' m hm (.refl engine m)
  rw [hon] at hon'
  cases hon'
  rfl

end Engine

/-! ## Two runs -/

namespace Runs

open Engine

variable {engine : Engine} {task : Task} {m m' M M' : Memory} {s : Except Failure Value}
  {log log' : Log}

theorem later (h : Runs engine task m s m' log) : engine.Later m m' where
  grows _ _ hv := h.values_grow hv
  same hremember c := by
    induction h with
    | circle _ => rfl
    | settled _ _ => rfl
    | remembered _ _ => rfl
    | tooDeep _ _ _ => rfl
    | computed _ _ _ _ ih =>
        rw [Memory.keep, hremember]
        exact ih
    | failed _ _ _ _ ih => exact ih
    | done => rfl
    | fail => rfl
    | note _ ih => rw [ih, Memory.values_noted]
    | asked _ _ ih₁ ih => exact ih.trans ih₁
    | askFailed _ ih => exact ih

theorem isFormula (h : Runs engine task m s m' log)
    (hm : ∀ c, m.Remembers c → engine.IsFormula c) :
    ∀ c, m'.Remembers c → engine.IsFormula c := by
  induction h with
  | circle _ => exact hm
  | settled _ _ => exact hm
  | remembered _ _ => exact hm
  | tooDeep _ _ _ => exact hm
  | computed _ he _ _ ih =>
      intro c hc
      obtain ⟨-, rfl⟩ | hc := Memory.remembers_keep.mp hc
      · exact ⟨_, he⟩
      · exact ih hm c hc
  | failed _ _ _ _ ih => exact ih hm
  | done => exact hm
  | fail => exact hm
  | note _ ih => exact ih fun c hc => hm c (Memory.remembers_noted.mp hc)
  | asked _ _ ih₁ ih => exact ih (ih₁ hm)
  | askFailed _ ih => exact ih hm

/-- A run that starts later than one that came to a value comes to the same value. -/
theorem again {v : Value} (h : Runs engine task m (.ok v) m' log) (hlater : engine.Later m' M)
    (hM : ∀ c, M.Remembers c → engine.IsFormula c) (h' : Runs engine task M s M' log') :
    s = .ok v := by
  generalize hr : (Except.ok v : Except Failure Value) = r at h ⊢
  induction h generalizing v s M M' log' with
  | circle hc => exact h'.visit_circle hc
  | settled hc hholding => exact (h'.visit_settled hc hM hholding).1
  | remembered hc hv => exact (h'.visit_remembered hc hM (hlater.grows _ _ hv)).1
  | tooDeep _ _ _ => cases hr
  | @computed _ _ cell _ m₁ _ _ w _ hc he hnone hrun ih =>
      cases hremember : engine.settings.remember with
      | true =>
          rw [hremember] at hlater
          have hkept : (m₁.keep true cell w).values[cell]? = some w := by
            rw [Memory.values_keep, if_pos ⟨rfl, rfl⟩]
          exact (h'.visit_remembered hc hM (hlater.grows _ _ hkept)).1
      | false =>
          -- nothing was remembered since, so the cell is computed again
          rw [hremember] at hlater
          have hlater : engine.Later m₁ M := hlater
          have hnone' : M.values[cell]? = none := by
            rw [hlater.same hremember, hrun.later.same hremember]
            exact hnone
          obtain ⟨_, _, _, hrun', -, -⟩ := h'.visit_formula hc he hnone'
          refine ih ?_ ?_ hrun' rfl
          · exact hlater.trans (.of_values rfl)
          · exact fun c hc => hM c hc
  | failed _ _ _ _ _ => cases hr
  | done =>
      cases h'
      rfl
  | fail => cases hr
  | note _ ih =>
      cases h' with
      | note hrest' =>
          refine ih (hlater.trans (.of_values (Memory.values_noted _ _ _))) ?_ hrest' hr
          exact fun c hc => hM c (Memory.remembers_noted.mp hc)
  | asked _ hrest ih₁ ih =>
      have hlater₁ := hrest.later.trans hlater
      cases h' with
      | asked h₁' hrest' =>
          cases ih₁ hlater₁ hM h₁' rfl
          exact ih (hlater.trans h₁'.later) (h₁'.isFormula hM) hrest' hr
      | askFailed h₁' => cases ih₁ hlater₁ hM h₁' rfl
  | askFailed _ _ => cases hr

end Runs

/-! ## Computations from later memories -/

namespace Engine

variable {engine : Engine} {m m' M : Memory} {v : Value}

end Engine

end Spreadsheet
