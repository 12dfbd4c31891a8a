-- SUMMARY: What every run keeps of the memory: values and precedents, which it only adds to.
import Spreadsheet.Proofs.Dependencies
import Spreadsheet.Proofs.Trace

/-!
# What runs keep

A run forgets nothing but the precedents of the cells it computes. Values that are
remembered stay, cells under computation stay without one, and every reading that a formula
notes is still recorded when its computation is over. What a visit does follows from what is known
of its cell.
-/

namespace Spreadsheet

open Std

namespace Task

def depth : Task → Nat
  | .cell depth _ _ | .inquiry depth _ _ _ => depth

def chain : Task → List CellAddress
  | .cell _ chain _ | .inquiry _ chain _ _ => chain

/-- The cell whose formula is being computed. -/
def reader : Task → Option CellAddress
  | .cell _ _ _ => none
  | .inquiry _ _ reader _ => reader

end Task

namespace Memory

variable {m : Memory} {x y cell : CellAddress} {v : Value} {r : Reading} {p : Precedent}

/-- The memory holds a value of the cell. -/
def Remembers (m : Memory) (x : CellAddress) : Prop := ∃ v, m.values[x]? = some v

/-- What the formula of a cell is recorded to have read. -/
def precedents (m : Memory) (x : CellAddress) : List Precedent := m.dependencies.precedents x

@[simp] theorem values_noted (m : Memory) (reader : Option CellAddress) (r : Reading) :
    (m.noted reader r).values = m.values := by
  cases reader <;> rfl

@[simp] theorem values_forget (m : Memory) (x : CellAddress) : (m.forget x).values = m.values :=
  rfl

@[simp] theorem remembers_noted {reader : Option CellAddress} :
    (m.noted reader r).Remembers x ↔ m.Remembers x := by
  simp [Remembers]

theorem mem_precedents_noted {reader : Option CellAddress} :
    p ∈ (m.noted reader r).precedents y ↔
      (reader = some y ∧ r.precedent = p) ∨ p ∈ m.precedents y := by
  cases reader with
  | none => simp [noted]
  | some x => simp [noted, record, precedents, Dependencies.mem_precedents_record]

theorem mem_precedents_forget : p ∈ (m.forget x).precedents y ↔ x ≠ y ∧ p ∈ m.precedents y :=
  Dependencies.mem_precedents_forget

/-- What is recorded of a remembered cell stays when one that is not remembered starts anew. -/
theorem mem_precedents_forget_of_remembered {formulas : TreeMap String Formula.Expr}
    (hnone : m.values[x]? = none) (hv : m.values[y]? = some v) (hp : p ∈ m.precedents y) :
    p ∈ (forget { m with formulas } x).precedents y := by
  refine mem_precedents_forget.mpr ⟨?_, hp⟩
  rintro rfl
  rw [hnone] at hv
  cases hv

@[simp] theorem precedents_keep (m : Memory) (remember : Bool) (cell : CellAddress) (v : Value) :
    (m.keep remember cell v).precedents = m.precedents := by
  unfold keep
  split <;> rfl

@[simp] theorem dependencies_keep (m : Memory) (remember : Bool) (cell : CellAddress)
    (v : Value) : (m.keep remember cell v).dependencies = m.dependencies := by
  unfold keep
  split <;> rfl

theorem values_keep (m : Memory) (remember : Bool) (cell : CellAddress) (v : Value)
    (x : CellAddress) :
    (m.keep remember cell v).values[x]? =
      if remember = true ∧ cell = x then some v else m.values[x]? := by
  cases remember
  · simp [keep]
  · simp [keep, Memory.remember, TreeMap.getElem?_insert, LawfulEqCmp.compare_eq_iff_eq]

@[simp] theorem remembers_keep {remember : Bool} :
    (m.keep remember cell v).Remembers x ↔ (remember = true ∧ cell = x) ∨ m.Remembers x := by
  simp only [Remembers, values_keep]
  split
  · rename_i h
    exact ⟨fun _ => .inl h, fun _ => ⟨v, rfl⟩⟩
  · rename_i h
    exact ⟨.inr, fun hx => hx.resolve_left h⟩

theorem values_keep_of_ne {remember : Bool} (h : cell ≠ x) :
    (m.keep remember cell v).values[x]? = m.values[x]? := by
  rw [values_keep, if_neg fun hc => h hc.2]

end Memory

namespace Runs

variable {engine : Engine} {task : Task} {m m' : Memory} {s : Except Failure Value} {log : Log}
  {x : CellAddress}

/-! ## Visits by what is known of the cell -/

section

variable {depth : Nat} {chain : List CellAddress} {c : CellAddress}
  (h : Runs engine (.cell depth chain c) m s m' log)
include h

theorem visit_circle (hc : c ∈ chain) : s = .ok (.error .circular) := by
  cases h with
  | circle _ => rfl
  | settled hnot _ => exact absurd hc hnot
  | remembered hnot _ => exact absurd hc hnot
  | tooDeep hnot _ _ => exact absurd hc hnot
  | computed hnot _ _ _ => exact absurd hc hnot
  | failed hnot _ _ _ => exact absurd hc hnot

theorem visit_settled (hc : c ∉ chain) (hm : ∀ x, m.Remembers x → engine.IsFormula x)
    {r : Except Failure Value} (hr : engine.holding c = .result r) : s = r ∧ m' = m := by
  have hnot : ¬ engine.IsFormula c := by
    rintro ⟨e, he⟩
    rw [hr] at he
    cases he
  cases h with
  | circle hmem => exact absurd hmem hc
  | settled _ hr' =>
      rw [hr] at hr'
      cases hr'
      exact ⟨rfl, rfl⟩
  | remembered _ hv => exact absurd (hm c ⟨_, hv⟩) hnot
  | tooDeep _ he _ => exact absurd ⟨_, he⟩ hnot
  | computed _ he _ _ => exact absurd ⟨_, he⟩ hnot
  | failed _ he _ _ => exact absurd ⟨_, he⟩ hnot

theorem visit_remembered (hc : c ∉ chain) (hm : ∀ x, m.Remembers x → engine.IsFormula x)
    {v : Value} (hv : m.values[c]? = some v) : s = .ok v ∧ m' = m := by
  have hsome {P : Prop} (hnone : m.values[c]? = none) : P := by
    rw [hv] at hnone
    cases hnone
  cases h with
  | circle hmem => exact absurd hmem hc
  | settled _ hr =>
      obtain ⟨e, he⟩ := hm c ⟨v, hv⟩
      rw [hr] at he
      cases he
  | remembered _ hv' =>
      rw [hv] at hv'
      cases hv'
      exact ⟨rfl, rfl⟩
  | tooDeep _ _ hnone => exact hsome hnone
  | computed _ _ hnone _ => exact hsome hnone
  | failed _ _ hnone _ => exact hsome hnone

end

/-- A formula cell that is not remembered is computed. -/
theorem visit_formula {depth : Nat} {chain : List CellAddress} {c : CellAddress}
    (h : Runs engine (.cell (depth + 1) chain c) m s m' log) (hc : c ∉ chain)
    {e : Formula.Expr} (he : engine.holding c = .formula e) (hnone : m.values[c]? = none) :
    ∃ formulas m₁ log₁,
      Runs engine (.inquiry depth (c :: chain) (some c) (engine.inquiry chain c e))
        (Memory.forget { m with formulas } c) s m₁ log₁ ∧
      (∀ v, s = .ok v → m' = m₁.keep engine.settings.remember c v) ∧
      ∀ failure, s = .error failure → m' = m₁ := by
  cases h with
  | circle hmem => exact absurd hmem hc
  | settled _ hr =>
      rw [he] at hr
      cases hr
  | remembered _ hv =>
      rw [hnone] at hv
      cases hv
  | computed _ he' _ hrun =>
      rw [he] at he'
      cases he'
      refine ⟨_, _, _, hrun, ?_, ?_⟩
      · exact fun v hv => by cases hv; rfl
      · exact fun failure hs => by cases hs
  | failed _ he' _ hrun =>
      rw [he] at he'
      cases he'
      refine ⟨_, _, _, hrun, ?_, ?_⟩
      · exact fun v hv => by cases hv
      · exact fun failure hs => rfl

/-! ## Values -/

/-- What is remembered stays remembered. -/
theorem values_grow (h : Runs engine task m s m' log) {v : Value} (hx : m.values[x]? = some v) :
    m'.values[x]? = some v := by
  induction h with
  | circle _ => exact hx
  | settled _ _ => exact hx
  | remembered _ _ => exact hx
  | tooDeep _ _ _ => exact hx
  | @computed _ _ cell m m' _ _ _ _ _ _ hnone _ ih =>
      have hne : cell ≠ x := by
        rintro rfl
        rw [hnone] at hx
        cases hx
      rw [Memory.values_keep_of_ne hne]
      exact ih hx
  | failed _ _ _ _ ih => exact ih hx
  | done => exact hx
  | fail => exact hx
  | note _ ih => exact ih (by rwa [Memory.values_noted])
  | asked _ _ ih₁ ih => exact ih (ih₁ hx)
  | askFailed _ ih => exact ih hx

theorem remembers_grow (h : Runs engine task m s m' log) (hx : m.Remembers x) : m'.Remembers x :=
  hx.imp fun _ hv => h.values_grow hv

/-- The cells under computation are not remembered meanwhile. -/
theorem values_chain (h : Runs engine task m s m' log) (hx : x ∈ task.chain)
    (hnone : m.values[x]? = none) : m'.values[x]? = none := by
  induction h with
  | circle _ => exact hnone
  | settled _ _ => exact hnone
  | remembered _ _ => exact hnone
  | tooDeep _ _ _ => exact hnone
  | @computed _ _ cell m m' _ _ _ _ hc _ _ _ ih =>
      have hne : cell ≠ x := fun h => hc (h ▸ hx)
      rw [Memory.values_keep_of_ne hne]
      exact ih (List.mem_cons_of_mem _ hx) hnone
  | failed _ _ _ _ ih => exact ih (List.mem_cons_of_mem _ hx) hnone
  | done => exact hnone
  | fail => exact hnone
  | note _ ih => exact ih hx (by rwa [Memory.values_noted])
  | asked _ _ ih₁ ih => exact ih hx (ih₁ hx hnone)
  | askFailed _ ih => exact ih hx hnone

/-! ## Precedents -/

/-- The precedents of cells that are under computation or remembered stay. -/
theorem precedents_grow (h : Runs engine task m s m' log)
    (hx : x ∈ task.chain ∨ m.Remembers x) {p : Precedent} (hp : p ∈ m.precedents x) :
    p ∈ m'.precedents x := by
  have hstart {depth : Nat} {chain : List CellAddress} {cell : CellAddress} {m : Memory}
      {formulas : TreeMap String Formula.Expr} (hc : cell ∉ chain)
      (hnone : m.values[cell]? = none)
      (hx : x ∈ (Task.cell depth chain cell).chain ∨ m.Remembers x) (hp : p ∈ m.precedents x) :
      (x ∈ cell :: chain ∨ m.Remembers x) ∧
        p ∈ (Memory.forget { m with formulas } cell).precedents x := by
    refine ⟨hx.imp_left (List.mem_cons_of_mem cell), Memory.mem_precedents_forget.mpr ⟨?_, hp⟩⟩
    rintro rfl
    obtain hx | ⟨v, hv⟩ := hx
    · exact hc hx
    · rw [hnone] at hv
      cases hv
  induction h with
  | circle _ => exact hp
  | settled _ _ => exact hp
  | remembered _ _ => exact hp
  | tooDeep _ _ _ => exact hp
  | computed hc _ hnone _ ih =>
      obtain ⟨hx, hp⟩ := hstart hc hnone hx hp
      rw [Memory.precedents_keep]
      exact ih hx hp
  | failed hc _ hnone _ ih =>
      obtain ⟨hx, hp⟩ := hstart hc hnone hx hp
      exact ih hx hp
  | done => exact hp
  | fail => exact hp
  | note _ ih =>
      exact ih (hx.imp_right Memory.remembers_noted.mpr)
        (Memory.mem_precedents_noted.mpr (.inr hp))
  | asked h₁ _ ih₁ ih => exact ih (hx.imp_right h₁.remembers_grow) (ih₁ hx hp)
  | askFailed _ ih => exact ih hx hp

/-- What a formula under computation notes is recorded. -/
theorem readings_recorded (h : Runs engine task m s m' log) (hreader : task.reader = some x)
    (hx : x ∈ task.chain) {r : Reading} (hr : r ∈ log.readings) :
    r.precedent ∈ m'.precedents x := by
  induction h with
  | circle _ => cases hreader
  | settled _ _ => cases hreader
  | remembered _ _ => cases hreader
  | tooDeep _ _ _ => cases hreader
  | computed _ _ _ _ _ => cases hreader
  | failed _ _ _ _ _ => cases hreader
  | done => cases hr
  | fail => cases hr
  | note hnext ih =>
      obtain rfl | hr := List.mem_cons.mp hr
      · exact hnext.precedents_grow (.inl hx)
          (Memory.mem_precedents_noted.mpr (.inl ⟨hreader, rfl⟩))
      · exact ih hreader hx hr
  | asked _ _ _ ih => exact ih hreader hx hr
  | askFailed _ _ => cases hr

/-- Both sides of the dependency record keep telling the same. -/
theorem mirrored (h : Runs engine task m s m' log) (hm : m.dependencies.Mirrored) :
    m'.dependencies.Mirrored := by
  induction h with
  | circle _ => exact hm
  | settled _ _ => exact hm
  | remembered _ _ => exact hm
  | tooDeep _ _ _ => exact hm
  | computed _ _ _ _ ih =>
      rw [Memory.dependencies_keep]
      exact ih (hm.forget _)
  | failed _ _ _ _ ih => exact ih (hm.forget _)
  | done => exact hm
  | fail => exact hm
  | @note _ _ reader _ _ _ _ _ _ _ ih =>
      cases reader with
      | none => exact ih hm
      | some x => exact ih (hm.record _ x)
  | asked _ _ ih₁ ih => exact ih (ih₁ hm)
  | askFailed _ ih => exact ih hm

end Runs

end Spreadsheet
