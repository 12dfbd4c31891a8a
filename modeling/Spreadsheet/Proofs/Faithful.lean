-- SUMMARY: Runs from a faithful memory give plain values and leave the memory faithful.
import Spreadsheet.Proofs.Runs

/-!
# Faithful memories

A memory is faithful if every remembered value is what the formula computes from plain
values, everything the formula noted is recorded, and every formula cell it asked for is
remembered too. A run from such a memory gives the plain value of its cell unless it gives
up at too deep a nesting, and it leaves such a memory.
-/

namespace Spreadsheet

open Std

namespace Engine

/-- Every remembered value was computed from plain values and can be told where from. -/
def Faithful (engine : Engine) (m : Memory) : Prop :=
  ∀ x v, m.values[x]? = some v → ∃ readings asked,
    engine.Computes x (.ok v) readings asked ∧
      (∀ r ∈ readings, r.precedent ∈ m.precedents x) ∧
      ∀ y ∈ asked, engine.IsFormula y → m.Remembers y

/-- What a task comes to when every cell has its plain value. -/
def outcome (engine : Engine) (n : Nat) : Task → Option (Except Failure Value)
  | .cell _ _ c => engine.plain n c
  | .inquiry _ _ _ q => q.evaluate (engine.plain n)

/-- The task comes to `r` at a bound at which the cells under computation have no value. So none
of them is asked for. -/
def Attains (engine : Engine) (n : Nat) (task : Task) (r : Except Failure Value) : Prop :=
  engine.outcome n task = some r ∧ ∀ x ∈ task.chain, engine.plain n x = none

/-- What the log and the memory tell when a task came to a value: the inquiry was taken along its
plain path, and all formula cells on it are remembered. -/
def Tells (engine : Engine) (n : Nat) (m' : Memory) (log : Log) : Task → Prop
  | .cell _ _ c => engine.settings.remember = true → engine.IsFormula c → m'.Remembers c
  | .inquiry _ _ _ q =>
    log.readings = q.readings (engine.plain n) ∧ log.asked = q.asked (engine.plain n) ∧
      (engine.settings.remember = true → ∀ c ∈ log.asked, engine.IsFormula c → m'.Remembers c)

variable {engine : Engine} {m : Memory} {cell : CellAddress} {n : Nat}

/-! ## Small steps -/

theorem faithful_of_values_empty (h : ∀ x : CellAddress, m.values[x]? = none) :
    engine.Faithful m := by
  intro x v hx
  rw [h x] at hx
  cases hx

theorem Faithful.plain (hm : engine.Faithful m) {v : Value} (hv : m.values[cell]? = some v) :
    ∃ n, engine.plain n cell = some (.ok v) := by
  obtain ⟨_, _, hcomputes, -, -⟩ := hm cell v hv
  exact hcomputes.plain

theorem Faithful.isFormula (hm : engine.Faithful m) (h : m.Remembers cell) :
    engine.IsFormula cell := by
  obtain ⟨v, hv⟩ := h
  obtain ⟨_, _, ⟨e, _, he, -⟩, -, -⟩ := hm cell v hv
  exact ⟨e, he⟩

theorem Faithful.forget (hm : engine.Faithful m) (hnone : m.values[cell]? = none)
    {formulas : TreeMap String Formula.Expr} :
    engine.Faithful (Memory.forget { m with formulas } cell) := by
  intro x v hx
  obtain ⟨readings, asked, hcomputes, hread, hasked⟩ := hm x v hx
  exact ⟨readings, asked, hcomputes, fun r hr =>
    Memory.mem_precedents_forget_of_remembered hnone hx (hread r hr), hasked⟩

theorem Faithful.noted (hm : engine.Faithful m) (reader : Option CellAddress) (r : Reading) :
    engine.Faithful (m.noted reader r) := by
  intro x v hx
  rw [Memory.values_noted] at hx
  obtain ⟨readings, asked, hcomputes, hread, hasked⟩ := hm x v hx
  refine ⟨readings, asked, hcomputes, ?_, ?_⟩
  · exact fun r hr => Memory.mem_precedents_noted.mpr (.inr (hread r hr))
  · exact fun y hy he => Memory.remembers_noted.mpr (hasked y hy he)

/-- A newly computed value may be remembered if everything about it is recorded. -/
theorem Faithful.keep (hm : engine.Faithful m) {remember : Bool} {v : Value}
    {readings : List Reading} {asked : List CellAddress}
    (hcomputes : engine.Computes cell (.ok v) readings asked)
    (hread : ∀ r ∈ readings, r.precedent ∈ m.precedents cell)
    (hasked : remember = true → ∀ y ∈ asked, engine.IsFormula y → m.Remembers y) :
    engine.Faithful (m.keep remember cell v) := by
  intro x w hx
  rw [Memory.values_keep] at hx
  rw [Memory.precedents_keep]
  split at hx
  · rename_i hkeep
    obtain ⟨hremember, rfl⟩ := hkeep
    cases hx
    refine ⟨readings, asked, hcomputes, hread, fun y hy he => ?_⟩
    exact Memory.remembers_keep.mpr (.inr (hasked hremember y hy he))
  · obtain ⟨readings, asked, hcomputes, hread, hasked⟩ := hm x w hx
    refine ⟨readings, asked, hcomputes, hread, fun y hy he => ?_⟩
    exact Memory.remembers_keep.mpr (.inr (hasked y hy he))

/-- A formula cell attains its value by an inquiry at a smaller bound. -/
theorem Attains.inquiry (hu : engine.Uniform) {depth : Nat} {chain : List CellAddress}
    {e : Formula.Expr} {r : Except Failure Value} {d : Nat}
    (h : engine.Attains n (.cell depth chain cell) r) (he : engine.holding cell = .formula e) :
    ∃ k < n, engine.Attains k
      (.inquiry d (cell :: chain) (some cell) (engine.inquiry chain cell e)) r := by
  obtain ⟨k, hk, hr, hnone⟩ := exists_computes he h.1
  refine ⟨k, hk, ?_, ?_⟩
  · rw [hu chain cell e]
    exact hr
  · intro x hx
    obtain rfl | hx := List.mem_cons.mp hx
    · exact hnone
    · exact plain_none_of_le (Nat.le_of_lt hk) (h.2 x hx)

/-- An attained inquiry of a formula is what its cell computes. -/
theorem Attains.computes (hu : engine.Uniform) {depth : Nat} {chain below : List CellAddress}
    {reader : Option CellAddress} {e : Formula.Expr} {r : Except Failure Value}
    (h : engine.Attains n (.inquiry depth below reader (engine.inquiry chain cell e)) r)
    (he : engine.holding cell = .formula e) :
    engine.Computes cell r ((engine.inquiry chain cell e).readings (engine.plain n))
      ((engine.inquiry chain cell e).asked (engine.plain n)) := by
  rw [hu chain cell e] at h ⊢
  exact ⟨e, n, he, h.1, rfl, rfl⟩

/-- What an attained inquiry asks for first is attained. -/
theorem Attains.ask {depth : Nat} {chain : List CellAddress} {reader : Option CellAddress}
    {c : CellAddress} {resume : Value → Inquiry Value} {r : Except Failure Value}
    (h : engine.Attains n (.inquiry depth chain reader (.ask c resume)) r) :
    (∃ failure, r = .error failure ∧
      engine.Attains n (.cell depth chain c) (.error failure)) ∨
    ∃ v, engine.Attains n (.cell depth chain c) (.ok v) ∧
      engine.Attains n (.inquiry depth chain reader (resume v)) r := by
  obtain ⟨hr, hnone⟩ := h
  simp only [outcome, Inquiry.evaluate_ask] at hr
  cases hc : engine.plain n c with
  | none => simp [hc] at hr
  | some a =>
      cases a with
      | error failure =>
          simp only [hc, Option.some.injEq] at hr
          exact .inl ⟨failure, hr.symm, hc, hnone⟩
      | ok v =>
          simp only [hc] at hr
          exact .inr ⟨v, ⟨hc, hnone⟩, hr, hnone⟩

/-- What is asked for first comes to something. -/
theorem Attains.answer {depth : Nat} {chain : List CellAddress} {reader : Option CellAddress}
    {c : CellAddress} {resume : Value → Inquiry Value} {r : Except Failure Value}
    (h : engine.Attains n (.inquiry depth chain reader (.ask c resume)) r) :
    ∃ a, engine.Attains n (.cell depth chain c) a := by
  obtain ⟨failure, -, hc⟩ | ⟨v, hc, -⟩ := h.ask
  · exact ⟨_, hc⟩
  · exact ⟨_, hc⟩

end Engine

/-! ## Runs -/

namespace Runs

open Engine

variable {engine : Engine} {task : Task} {m m' : Memory} {s r : Except Failure Value} {log : Log}
  {n : Nat}

/-- From a faithful memory, a task that attains a result gives it unless it gives up, and leaves
a faithful memory. It gives up only if the result takes more nesting than it may use. -/
theorem attains (hu : engine.Uniform) (h : Runs engine task m s m' log) (hm : engine.Faithful m)
    (ht : engine.Attains n task r) :
    engine.Faithful m' ∧
      (s = r ∨ (s = .error (.tooDeep engine.settings.maxDepth) ∧ task.depth < n)) ∧
      ∀ v, s = .ok v → engine.Tells n m' log task := by
  -- by induction on the run; the bound `n` gets smaller where a formula is entered
  induction h generalizing n r with
  | circle hc =>
      -- the cells under computation have no value at the bound, so none of them is asked for
      have hnone := ht.2 _ hc
      have hsome := ht.1
      simp only [outcome] at hsome
      rw [hsome] at hnone
      cases hnone
  | settled hc hr =>
      refine ⟨hm, .inl ?_, ?_⟩
      · exact Option.some.inj ((plain_of_result hr n).symm.trans ht.1)
      · rintro v - - ⟨e, he⟩
        rw [hr] at he
        cases he
  | remembered hc hv =>
      obtain ⟨k, hk⟩ := hm.plain hv
      exact ⟨hm, .inl (plain_unique hk ht.1), fun v _ _ _ => ⟨_, hv⟩⟩
  | tooDeep hc he hnone =>
      obtain ⟨k, hk, -⟩ := exists_computes he ht.1
      exact ⟨hm, .inr ⟨rfl, Nat.lt_of_le_of_lt (Nat.zero_le k) hk⟩, fun v hv => by cases hv⟩
  | @computed _ _ cell _ _ _ _ v log hc he hnone hrun ih =>
      obtain ⟨k, hk, hattains⟩ := ht.inquiry hu he
      obtain ⟨hm', hs, htells⟩ := ih (hm.forget hnone) hattains
      obtain ⟨hread, hasked, hremembers⟩ := htells _ rfl
      obtain rfl | ⟨hs, -⟩ := hs
      · -- what is remembered has to say what the value was read from, which is what the log tells
        have hcomputes : engine.Computes cell (.ok v) log.readings log.asked := by
          rw [hread, hasked]
          exact hattains.computes hu he
        refine ⟨hm'.keep hcomputes ?_ hremembers, .inl rfl, fun v _ hremember _ => ?_⟩
        · exact fun r hr => hrun.readings_recorded rfl List.mem_cons_self hr
        · exact Memory.remembers_keep.mpr (.inl ⟨hremember, rfl⟩)
      · cases hs
  | failed hc he hnone _ ih =>
      obtain ⟨k, hk, hattains⟩ := ht.inquiry hu he
      obtain ⟨hm', hs, -⟩ := ih (hm.forget hnone) hattains
      refine ⟨hm', hs.imp_right fun ⟨hs, hdepth⟩ => ⟨hs, ?_⟩, fun v hv => by cases hv⟩
      exact Nat.lt_of_le_of_lt (Nat.succ_le_of_lt hdepth) hk
  | done =>
      refine ⟨hm, .inl (Option.some.inj ht.1), fun v _ => ⟨rfl, rfl, ?_⟩⟩
      exact fun _ c hc => by cases hc
  | fail => exact ⟨hm, .inl (Option.some.inj ht.1), fun v hv => by cases hv⟩
  | @note _ _ reader _ _ note _ _ _ _ ih =>
      obtain ⟨hm', hs, htells⟩ := ih (hm.noted reader note) ht
      refine ⟨hm', hs, fun v hv => ?_⟩
      obtain ⟨hread, hasked, hremembers⟩ := htells v hv
      exact ⟨congrArg (note :: ·) hread, hasked, hremembers⟩
  | @asked _ _ _ _ _ _ d _ v _ _ _ _ hrest ih₁ ih =>
      obtain ⟨failure, rfl, hc⟩ | ⟨w, hc, hrest'⟩ := ht.ask
      · obtain ⟨-, hs | ⟨hs, -⟩, -⟩ := ih₁ hm hc <;> cases hs
      · obtain ⟨hm₁, hs | ⟨hs, -⟩, htells₁⟩ := ih₁ hm hc
        · cases hs
          obtain ⟨hm', hs, htells⟩ := ih hm₁ hrest'
          refine ⟨hm', hs, fun w hw => ?_⟩
          obtain ⟨hread, hasked, hremembers⟩ := htells w hw
          have hplain : engine.plain n d = some (.ok v) := hc.1
          refine ⟨?_, ?_, fun hremember c hmem he => ?_⟩
          · simp only [Inquiry.readings, hplain, hread]
          · simp only [Inquiry.asked, hplain, hasked]
          · obtain rfl | hmem := List.mem_cons.mp hmem
            · -- the cell asked for first is not forgotten while the rest is answered
              exact hrest.remembers_grow (htells₁ v rfl hremember he)
            · exact hremembers hremember c hmem he
        · cases hs
  | askFailed _ ih =>
      obtain ⟨failure, rfl, hc⟩ | ⟨w, hc, -⟩ := ht.ask
      · obtain ⟨hm', hs, -⟩ := ih hm hc
        exact ⟨hm', hs, fun v hv => by cases hv⟩
      · obtain ⟨hm', hs | hs, -⟩ := ih hm hc
        · cases hs
        · exact ⟨hm', .inr hs, fun v hv => by cases hv⟩

/-- A value that answers a question is the plain one, and the rest attains the result. -/
theorem attains_rest (hu : engine.Uniform) {depth : Nat} {chain : List CellAddress}
    {reader : Option CellAddress} {c : CellAddress} {resume : Value → Inquiry Value} {v : Value}
    (h : Runs engine (.cell depth chain c) m (.ok v) m' log) (hm : engine.Faithful m)
    (ht : engine.Attains n (.inquiry depth chain reader (.ask c resume)) r) :
    engine.Faithful m' ∧ engine.Attains n (.cell depth chain c) (.ok v) ∧
      engine.Attains n (.inquiry depth chain reader (resume v)) r := by
  obtain ⟨failure, rfl, hc⟩ | ⟨w, hc, hrest⟩ := ht.ask
  · obtain ⟨-, hs | ⟨hs, -⟩, -⟩ := h.attains hu hm hc <;> cases hs
  · obtain ⟨hm', hs | ⟨hs, -⟩, -⟩ := h.attains hu hm hc
    · cases hs
      exact ⟨hm', hc, hrest⟩
    · cases hs

end Runs

end Spreadsheet
