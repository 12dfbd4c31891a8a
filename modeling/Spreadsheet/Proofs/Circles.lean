-- SUMMARY: Where no circle is met, every cell has a plain value.
import Spreadsheet.Proofs.Faithful
import Spreadsheet.Proofs.Workbook

/-!
# Circles

A computation that meets no cell under computation gives the plain value or gives up at a
chain of formulas that is as long as the bound. Since a workbook has finitely many formula
cells, a large enough bound leaves the plain value.
-/

namespace Spreadsheet

open Std

namespace Engine

/-- Every remembered value is the plain one. -/
def Sound (engine : Engine) (m : Memory) : Prop :=
  ∀ (x : CellAddress) v, m.values[x]? = some v → ∃ n, engine.plain n x = some (.ok v)

/-- There are that many formula cells. -/
def HasFormulas (engine : Engine) (count : Nat) : Prop :=
  ∃ cells : List CellAddress, cells.Nodup ∧ (∀ x ∈ cells, engine.IsFormula x) ∧
    cells.length = count

end Engine

namespace Runs

open Engine

variable {engine : Engine} {task : Task} {m m' : Memory} {s : Except Failure Value} {log : Log}

/-- A run that meets no circle gives the plain result, or it gives up and there are more formula
cells than it may nest. -/
theorem outcome_or_tooDeep (hu : engine.Uniform) (h : Runs engine task m s m' log)
    (hm : engine.Sound m) (hcircle : ∀ c, Event.circle c ∉ log.events)
    (hnodup : task.chain.Nodup) (hchain : ∀ x ∈ task.chain, engine.IsFormula x) :
    engine.Sound m' ∧
      ((∃ n, engine.outcome n task = some s) ∨
        (s = .error (.tooDeep engine.settings.maxDepth) ∧
          engine.HasFormulas (task.depth + 1 + task.chain.length))) := by
  -- by induction on the run; the cells under computation differ, so those of a run that gives up
  -- are as many as it may nest
  induction h with
  | circle hc => exact absurd List.mem_cons_self (hcircle _)
  | settled hc hr => exact ⟨hm, .inl ⟨0, plain_of_result hr 0⟩⟩
  | remembered hc hv => exact ⟨hm, .inl (hm _ _ hv)⟩
  | @tooDeep chain cell _ e _ hc he hnone =>
      refine ⟨hm, .inr ⟨rfl, cell :: chain, List.nodup_cons.mpr ⟨hc, hnodup⟩, ?_, ?_⟩⟩
      · exact List.forall_mem_cons.mpr ⟨⟨e, he⟩, hchain⟩
      · simp [Task.depth, Task.chain, Nat.add_comm]
  | @computed _ chain cell _ _ e _ v log hc he hnone _ ih =>
      have hcircle' : ∀ c, Event.circle c ∉ log.events := fun c hmem =>
        hcircle c (List.mem_append_left _ hmem)
      obtain ⟨hm', ⟨n, hn⟩ | ⟨hs, -⟩⟩ := ih hm hcircle' (List.nodup_cons.mpr ⟨hc, hnodup⟩)
        (List.forall_mem_cons.mpr ⟨⟨e, he⟩, hchain⟩)
      · have hplain : engine.plain (n + 1) cell = some (.ok v) := by
          rw [plain_succ he, ← hu chain cell e]
          exact hn
        refine ⟨fun x w hx => ?_, .inl ⟨n + 1, hplain⟩⟩
        rw [Memory.values_keep] at hx
        split at hx
        · rename_i hkeep
          obtain ⟨-, rfl⟩ := hkeep
          exact ⟨n + 1, Option.some.inj hx ▸ hplain⟩
        · exact hm' x w hx
      · cases hs
  | @failed depth chain cell _ _ e _ _ _ hc he hnone _ ih =>
      obtain ⟨hm', ⟨n, hn⟩ | ⟨hs, cells, hcells, hformula, hlength⟩⟩ := ih hm hcircle
        (List.nodup_cons.mpr ⟨hc, hnodup⟩) (List.forall_mem_cons.mpr ⟨⟨e, he⟩, hchain⟩)
      · refine ⟨hm', .inl ⟨n + 1, ?_⟩⟩
        change engine.plain (n + 1) cell = _
        rw [plain_succ he, ← hu chain cell e]
        exact hn
      · refine ⟨hm', .inr ⟨hs, cells, hcells, hformula, ?_⟩⟩
        simp only [Task.depth, Task.chain, List.length_cons] at hlength ⊢
        omega
  | done => exact ⟨hm, .inl ⟨0, rfl⟩⟩
  | fail => exact ⟨hm, .inl ⟨0, rfl⟩⟩
  | note _ ih =>
      refine ih (fun x v hv => hm x v ?_) hcircle hnodup hchain
      rwa [Memory.values_noted] at hv
  | @asked _ _ _ _ _ _ c resume v _ _ _ _ _ ih₁ ih =>
      obtain ⟨hm₁, ⟨n, hn⟩ | ⟨hs, -⟩⟩ := ih₁ hm
        (fun c hmem => hcircle c (List.mem_append_left _ hmem)) hnodup hchain
      · obtain ⟨hm', ⟨k, hk⟩ | hdeep⟩ := ih hm₁
          (fun c hmem => hcircle c (List.mem_append_right _ hmem)) hnodup hchain
        · -- the answer and the rest have their values at two bounds, so the larger one is taken
          refine ⟨hm', .inl ⟨max n k, ?_⟩⟩
          have hc : engine.plain (max n k) c = some (.ok v) := plain_mono (Nat.le_max_left n k) hn
          simp only [outcome, Inquiry.evaluate_ask, hc]
          exact (evaluate_plain_mono (Nat.le_max_right n k) hk).1
        · exact ⟨hm', .inr hdeep⟩
      · cases hs
  | @askFailed _ _ _ _ _ c _ failure _ _ ih =>
      obtain ⟨hm', ⟨n, hn⟩ | hdeep⟩ := ih hm hcircle hnodup hchain
      · refine ⟨hm', .inl ⟨n, ?_⟩⟩
        have hc : engine.plain n c = some (.error failure) := hn
        simp only [outcome, Inquiry.evaluate_ask, hc]
      · exact ⟨hm', .inr hdeep⟩

/-- A run that attains a result meets no circle: the cells under computation have no value yet at
the bound of what is asked for. -/
theorem circle_notMem_of_attains (hu : engine.Uniform) (h : Runs engine task m s m' log)
    (hm : engine.Faithful m) {n : Nat} {r : Except Failure Value} (ht : engine.Attains n task r) :
    ∀ c, Event.circle c ∉ log.events := by
  induction h generalizing n r with
  | @circle _ _ c _ hc =>
      have hplain : engine.plain n c = some r := ht.1
      rw [ht.2 c hc] at hplain
      cases hplain
  | settled _ _ => exact fun _ => List.not_mem_nil
  | remembered _ _ => exact fun _ => List.not_mem_nil
  | tooDeep _ _ _ => exact fun _ => List.not_mem_nil
  | computed _ he hnone _ ih =>
      intro c hmem
      obtain ⟨k, -, hattains⟩ := ht.inquiry hu he
      obtain hmem | hmem := List.mem_append.mp hmem
      · exact ih (hm.forget hnone) hattains c hmem
      · cases List.mem_singleton.mp hmem
  | failed _ he hnone _ ih =>
      obtain ⟨k, -, hattains⟩ := ht.inquiry hu he
      exact ih (hm.forget hnone) hattains
  | done => exact fun _ => List.not_mem_nil
  | fail => exact fun _ => List.not_mem_nil
  | @note _ _ reader _ _ note _ _ _ _ ih => exact ih (hm.noted reader note) ht
  | asked h₁ _ ih₁ ih =>
      intro c hmem
      obtain ⟨hm₁, hask, hrest⟩ := h₁.attains_rest hu hm ht
      obtain hmem | hmem := List.mem_append.mp hmem
      · exact ih₁ hm hask c hmem
      · exact ih hm₁ hrest c hmem
  | askFailed _ ih =>
      obtain ⟨a, hask⟩ := ht.answer
      exact ih hm hask

/-- What a task may ask for is of smaller rank than all that is under computation. -/
def Below (rank : CellAddress → Nat) : Task → Prop
  | .cell _ chain c => ∀ x ∈ chain, rank c < rank x
  | .inquiry _ chain _ q => q.AsksOnly fun c => ∀ x ∈ chain, rank c < rank x

/-- Where formulas ask for cells of smaller rank only, a run meets no circle. -/
theorem circle_notMem {rank : CellAddress → Nat}
    (hrank : ∀ chain c e, engine.holding c = .formula e →
      (engine.inquiry chain c e).AsksOnly fun y => rank y < rank c)
    (h : Runs engine task m s m' log) (htask : Below rank task) :
    ∀ c, Event.circle c ∉ log.events := by
  have hinner {depth : Nat} {chain : List CellAddress} {c : CellAddress} {e : Formula.Expr}
      (hc : Below rank (.cell depth chain c)) (he : engine.holding c = .formula e) :
      Below rank (.inquiry depth (c :: chain) (some c) (engine.inquiry chain c e)) := by
    refine (hrank chain c e he).mono fun y hy x hx => ?_
    obtain rfl | hx := List.mem_cons.mp hx
    · exact hy
    · exact Nat.lt_trans hy (hc x hx)
  induction h with
  | circle hc => exact absurd (htask _ hc) (Nat.lt_irrefl _)
  | settled _ _ => exact fun _ => List.not_mem_nil
  | remembered _ _ => exact fun _ => List.not_mem_nil
  | tooDeep _ _ _ => exact fun _ => List.not_mem_nil
  | computed _ he _ _ ih =>
      intro c hmem
      obtain hmem | hmem := List.mem_append.mp hmem
      · exact ih (hinner htask he) c hmem
      · cases List.mem_singleton.mp hmem
  | failed _ he _ _ ih => exact ih (hinner htask he)
  | done => exact fun _ => List.not_mem_nil
  | fail => exact fun _ => List.not_mem_nil
  | note _ ih => exact ih htask
  | asked _ _ ih₁ ih =>
      intro c hmem
      obtain hmem | hmem := List.mem_append.mp hmem
      · exact ih₁ htask.1 c hmem
      · exact ih (htask.2 _) c hmem
  | askFailed _ ih => exact ih htask.1

end Runs

namespace Engine

variable {engine : Engine} {cell : CellAddress}

/-! ## Books without circles -/

/-- No computation of the cell from an empty memory, however deep it may nest, meets a cell under
computation. -/
def CircleFree (engine : Engine) (cell : CellAddress) : Prop :=
  ∀ depth c, Event.circle c ∉ engine.events depth [] cell {}

/-- No circle is met where formulas ask for cells of smaller rank only. -/
theorem circleFree_of_rank (rank : CellAddress → Nat)
    (hrank : ∀ chain c e, engine.holding c = .formula e →
      (engine.inquiry chain c e).AsksOnly fun y => rank y < rank c) (cell : CellAddress) :
    engine.CircleFree cell := by
  intro depth
  obtain ⟨s, m', -, -, hrun⟩ := visits depth [] cell engine.formulasRead_empty
  exact hrun.circle_notMem hrank fun x hx => absurd hx List.not_mem_nil

theorem finite_formulas (engine : Engine) : {x | engine.IsFormula x}.Finite := by
  refine (Workbook.finite_readable engine.source.workbook).subset ?_
  rintro x ⟨e, he⟩
  obtain ⟨content, -, hread, -, -⟩ := holding_eq_formula.mp he
  exact ⟨content, hread⟩

theorem exists_not_hasFormulas (engine : Engine) : ∃ count, ¬ engine.HasFormulas (count + 1) := by
  refine ⟨engine.finite_formulas.toFinset.card, ?_⟩
  rintro ⟨cells, hnodup, hformula, hlength⟩
  have hle : cells.toFinset.card ≤ engine.finite_formulas.toFinset.card :=
    Finset.card_le_card fun x hx => by
      simpa using hformula x (List.mem_toFinset.mp hx)
  rw [List.toFinset_card_of_nodup hnodup] at hle
  omega

/-- A cell that no circle is met from has a plain value. -/
theorem exists_plain (hu : engine.Uniform) (h : engine.CircleFree cell) :
    ∃ n r, engine.plain n cell = some r := by
  obtain ⟨count, hcount⟩ := engine.exists_not_hasFormulas
  obtain ⟨s, m', -, -, hrun⟩ := visits count [] cell engine.formulasRead_empty
  have hsound : engine.Sound {} := fun x v hv => by simp at hv
  obtain ⟨-, ⟨n, hn⟩ | ⟨-, hformulas⟩⟩ := hrun.outcome_or_tooDeep hu hsound (h count)
    List.nodup_nil (by simp [Task.chain])
  · exact ⟨n, s, hn⟩
  · exact absurd hformulas hcount

/-- From a cell that has a plain value no circle is met. -/
theorem circleFree_of_plain (hu : engine.Uniform) {n : Nat} {r : Except Failure Value}
    (h : engine.plain n cell = some r) : engine.CircleFree cell := by
  intro depth
  obtain ⟨s, m', -, -, hrun⟩ := visits depth [] cell engine.formulasRead_empty
  have hfaithful : engine.Faithful {} := faithful_of_values_empty fun x => by simp
  exact hrun.circle_notMem_of_attains hu hfaithful ⟨h, fun x hx => absurd hx List.not_mem_nil⟩

/-- An inquiry comes to something if all that it may ask for has a plain value. -/
theorem exists_evaluate {α : Type} {allowed : CellAddress → Prop} {q : Inquiry α}
    (hq : q.AsksOnly allowed) (h : ∀ c, allowed c → ∃ n r, engine.plain n c = some r) :
    ∃ n r, q.evaluate (engine.plain n) = some r := by
  induction q with
  | done a => exact ⟨0, _, rfl⟩
  | fail failure => exact ⟨0, _, rfl⟩
  | note r next ih => exact ih hq
  | ask c resume ih =>
      obtain ⟨n, r, hn⟩ := h c hq.1
      cases r with
      | error failure => exact ⟨n, .error failure, by rw [Inquiry.evaluate_ask, hn]⟩
      | ok v =>
          obtain ⟨k, r, hk⟩ := ih v (hq.2 v)
          have hc := plain_mono (Nat.le_max_left n k) hn
          refine ⟨max n k, r, ?_⟩
          rw [Inquiry.evaluate_ask, hc]
          exact (evaluate_plain_mono (Nat.le_max_right n k) hk).1

end Engine

end Spreadsheet
