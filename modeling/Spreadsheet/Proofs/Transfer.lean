-- SUMMARY: Plain values and whole runs carried over to another engine and to a fuller memory.
import Spreadsheet.Proofs.Faithful

/-!
# Carrying runs over

Two engines may agree on a part of the cells: those that stay. Their plain values are the
same for both, and a run of the first engine has its counterpart in any run of the second
one that starts with more remembered values. An engine agrees with itself on all cells.
-/

namespace Spreadsheet

open Std

namespace Engine

/-- The second engine computes the cells that stay as the first one does. It may ask for spare
cells in between, which are blank. What the cells that stay read is stable and stays too. -/
structure Carries (engine engine' : Engine) (stays good spare : CellAddress → Prop)
    (stable : Reading → Prop) : Prop where
  settled : ∀ c, stays c → ∀ r, engine.holding c = .result r → engine'.holding c = .result r
  formula : ∀ c, stays c → ∀ e, engine.holding c = .formula e →
    engine'.holding c = .formula e ∧
      Inquiry.Padded good spare stable Eq (engine.inquiry [] c e) (engine'.inquiry [] c e)
  reads : ∀ c, stays c → ∀ r readings asked, engine.Computes c r readings asked →
    (∀ reading ∈ readings, stable reading) ∧ ∀ y ∈ asked, stays y
  blank : ∀ c, spare c → engine'.holding c = .result (.ok .blank)

theorem asksOnly_true {α : Type} (q : Inquiry α) : q.AsksOnly fun _ => True := by
  induction q with
  | done a => trivial
  | fail failure => trivial
  | note r next ih => exact ih
  | ask c resume ih => exact ⟨trivial, ih⟩

theorem Carries.refl (engine : Engine) :
    Carries engine engine (fun _ => True) (fun _ => True) (fun _ => False) fun _ => True where
  settled _ _ _ h := h
  formula _ _ _ h := ⟨h, .refl (asksOnly_true _)⟩
  reads _ _ _ _ _ _ := ⟨fun _ _ => trivial, fun _ _ => trivial⟩
  blank _ h := h.elim

variable {engine engine' : Engine} {stays good spare : CellAddress → Prop}
  {stable : Reading → Prop} {c : CellAddress} {r : Except Failure Value}

/-! ## Plain values -/

theorem Carries.isFormula (h : Carries engine engine' stays good spare stable) (hc : stays c) :
    engine.IsFormula c ↔ engine'.IsFormula c := by
  constructor
  · rintro ⟨e, he⟩
    exact ⟨e, (h.formula c hc e he).1⟩
  · rintro ⟨e, he⟩
    cases hh : engine.holding c with
    | result r =>
        rw [h.settled c hc r hh] at he
        cases he
    | formula e' => exact ⟨e', hh⟩

/-- What a formula that stays computes is computed by the second engine as well. -/
theorem Carries.evaluate (h : Carries engine engine' stays good spare stable) (hc : stays c)
    {e : Formula.Expr} (he : engine.holding c = .formula e) {n : Nat}
    (hr : (engine.inquiry [] c e).evaluate (engine.plain n) = some r)
    (hplain : ∀ y, stays y → ∀ a, engine.plain n y = some a → engine'.plain n y = some a) :
    (engine'.inquiry [] c e).evaluate (engine'.plain n) = some r ∧
      (engine'.inquiry [] c e).readings (engine'.plain n) =
        (engine.inquiry [] c e).readings (engine.plain n) ∧
      (∀ y ∈ (engine.inquiry [] c e).asked (engine.plain n),
        y ∈ (engine'.inquiry [] c e).asked (engine'.plain n)) ∧
      ∀ y ∈ (engine'.inquiry [] c e).asked (engine'.plain n),
        y ∈ (engine.inquiry [] c e).asked (engine.plain n) ∨ spare y := by
  obtain ⟨hstable, hstays⟩ := h.reads c hc r _ _ ⟨e, n, he, hr, rfl, rfl⟩
  refine (h.formula c hc e he).2.evaluate hr hstable (fun y hy => ?_) fun y hy => ?_
  · obtain ⟨a, ha⟩ := Inquiry.exists_answer hr hy
    rw [ha, hplain y (hstays y hy) a ha]
  · exact plain_of_result (h.blank y hy) n

theorem Carries.plain (h : Carries engine engine' stays good spare stable) {n : Nat}
    (hc : stays c) (hr : engine.plain n c = some r) : engine'.plain n c = some r := by
  induction n using Nat.strongRecOn generalizing c r with
  | ind n ih =>
      cases hh : engine.holding c with
      | result r' =>
          rw [plain_of_result (h.settled c hc r' hh), ← hr, plain_of_result hh]
      | formula e =>
          obtain ⟨k, hk, hkr, -⟩ := exists_computes hh hr
          have heval := (h.evaluate hc hh hkr fun y hy a ha => ih k hk hy ha).1
          exact plain_mono hk ((plain_succ (h.formula c hc e hh).1 k).trans heval)

/-- Nor does the second engine need less nesting for a cell that stays. -/
theorem Carries.plain_back (h : Carries engine engine' stays good spare stable) {n N : Nat}
    {r' : Except Failure Value} (hc : stays c) (hr : engine.plain N c = some r)
    (hr' : engine'.plain n c = some r') : engine.plain n c = some r := by
  induction n using Nat.strongRecOn generalizing c r r' N with
  | ind n ih =>
      cases hh : engine.holding c with
      | result a => rw [plain_of_result hh, ← hr, plain_of_result hh]
      | formula e =>
          obtain ⟨K, -, hK, -⟩ := exists_computes hh hr
          obtain ⟨k, hk, hkr, -⟩ := exists_computes (h.formula c hc e hh).1 hr'
          obtain ⟨hK', -, hasked, -⟩ := h.evaluate hc hh hK fun y hy a ha => h.plain hy ha
          have hstays := (h.reads c hc r _ _ ⟨e, K, hh, hK, rfl, rfl⟩).2
          -- the second inquiry takes the same path at both bounds, which is that of the larger one
          have hpath : (engine'.inquiry [] c e).asked (engine'.plain K) =
              (engine'.inquiry [] c e).asked (engine'.plain k) :=
            (evaluate_plain_mono (Nat.le_max_left K k) hK').2.1.symm.trans
              (evaluate_plain_mono (Nat.le_max_right K k) hkr).2.1
          have hasked' : ∀ y ∈ (engine.inquiry [] c e).asked (engine.plain K),
              y ∈ (engine'.inquiry [] c e).asked (engine'.plain k) :=
            fun y hy => hpath ▸ hasked y hy
          have hcongr := Inquiry.evaluate_congr fun y hy => by
            obtain ⟨a, ha⟩ := Inquiry.exists_answer hK hy
            obtain ⟨a', ha'⟩ := Inquiry.exists_answer hkr (hasked' y hy)
            exact (ih k hk (hstays y hy) ha ha').trans ha.symm
          exact plain_mono hk ((plain_succ hh k).trans (hcongr.1.trans hK))

theorem Carries.computes (h : Carries engine engine' stays good spare stable) (hc : stays c)
    {readings : List Reading} {asked : List CellAddress}
    (hcomputes : engine.Computes c r readings asked) :
    ∃ asked', engine'.Computes c r readings asked' ∧ (∀ y ∈ asked, y ∈ asked') ∧
      ∀ y ∈ asked', y ∈ asked ∨ spare y := by
  obtain ⟨e, n, he, hr, rfl, rfl⟩ := hcomputes
  obtain ⟨heval, hread, hasked, hback⟩ := h.evaluate hc he hr fun y hy a ha => h.plain hy ha
  exact ⟨_, ⟨e, n, (h.formula c hc e he).1, heval, hread, rfl⟩, hasked, hback⟩

/-- What a visit attains for the first engine it attains for the second one. -/
theorem Carries.attains (h : Carries engine engine' stays good spare stable) {n depth : Nat}
    {chain : List CellAddress}
    (hchain : ∀ x ∈ chain, stays x ∧ ∃ N a, engine.plain N x = some a) (hc : stays c)
    (ht : engine.Attains n (.cell depth chain c) r) :
    engine'.Attains n (.cell depth chain c) r := by
  refine ⟨h.plain hc ht.1, fun x hx => ?_⟩
  obtain ⟨hstays, N, a, ha⟩ := hchain x hx
  cases hx' : engine'.plain n x with
  | none => rfl
  | some a' =>
      have hnone := ht.2 x hx
      rw [h.plain_back hstays ha hx'] at hnone
      cases hnone

/-! ## What a run can come to remember -/

/-- The cells that the task is about, or may ask for, are among those that `holds` holds of. -/
def Within (engine : Engine) (n : Nat) (holds : CellAddress → Prop) : Task → Prop
  | .cell _ _ c => engine.IsFormula c → holds c
  | .inquiry _ _ _ q => ∀ y ∈ q.asked (engine.plain n), engine.IsFormula y → holds y

/-- With a cell, the set has all formula cells that it is computed from. -/
def Closed (engine : Engine) (holds : CellAddress → Prop) : Prop :=
  ∀ x, holds x → ∀ r readings asked, engine.Computes x r readings asked →
    ∀ y ∈ asked, engine.IsFormula y → holds y

end Engine

namespace Runs

open Engine

variable {engine engine' : Engine} {stays good spare : CellAddress → Prop}
  {stable : Reading → Prop} {task task' : Task} {m m' M M' : Memory}
  {s s' r : Except Failure Value} {log log' : Log} {n : Nat}

/-- Only cells that the task is computed from are newly remembered. -/
theorem remembers_within (hu : engine.Uniform) (h : Runs engine task m s m' log)
    (hm : engine.Faithful m) (ht : engine.Attains n task r) {holds : CellAddress → Prop}
    (hclosed : engine.Closed holds) (hwithin : engine.Within n holds task) {x : CellAddress}
    (hx : m'.Remembers x) : m.Remembers x ∨ holds x := by
  induction h generalizing n r with
  | circle _ => exact .inl hx
  | settled _ _ => exact .inl hx
  | remembered _ _ => exact .inl hx
  | tooDeep _ _ _ => exact .inl hx
  | @computed _ _ cell _ _ e _ _ _ hc he hnone _ ih =>
      obtain ⟨k, -, hattains⟩ := ht.inquiry hu he
      by_cases hcell : cell = x
      · exact .inr (hcell ▸ hwithin ⟨e, he⟩)
      · obtain ⟨w, hw⟩ := hx
        rw [Memory.values_keep_of_ne hcell] at hw
        refine ih (hm.forget hnone) hattains ?_ ⟨w, hw⟩
        exact hclosed cell (hwithin ⟨e, he⟩) r _ _ (hattains.computes hu he)
  | @failed _ _ cell _ _ e _ _ _ hc he hnone _ ih =>
      obtain ⟨k, -, hattains⟩ := ht.inquiry hu he
      refine ih (hm.forget hnone) hattains ?_ hx
      exact hclosed cell (hwithin ⟨e, he⟩) r _ _ (hattains.computes hu he)
  | done => exact .inl hx
  | fail => exact .inl hx
  | @note _ _ reader _ _ note _ _ _ _ ih =>
      obtain ⟨w, hw⟩ | hx := ih (hm.noted reader note) ht hwithin hx
      · exact .inl ⟨w, by rwa [Memory.values_noted] at hw⟩
      · exact .inr hx
  | @asked _ _ _ _ _ _ c _ v _ _ _ h₁ _ ih₁ ih =>
      obtain ⟨hm₁, hc, hrest⟩ := h₁.attains_rest hu hm ht
      have hplain : engine.plain n c = some (.ok v) := hc.1
      simp only [Within, Inquiry.asked, hplain, List.forall_mem_cons] at hwithin
      obtain hx | hx := ih hm₁ hrest hwithin.2 hx
      · exact ih₁ hm hc hwithin.1 hx
      · exact .inr hx
  | askFailed _ ih =>
      obtain ⟨a, hc⟩ := ht.answer
      exact ih hm hc (hwithin _ (Inquiry.mem_asked_ask _ _)) hx

variable {depth : Nat} {chain : List CellAddress} {c : CellAddress}

/-! ## Two runs -/

/-- The second inquiry goes on as the first one does, without asking for spare cells first. -/
def Aligned (good spare : CellAddress → Prop) (stable : Reading → Prop) :
    Inquiry Value → Inquiry Value → Prop
  | .done v, q' => q' = .done v
  | .fail failure, q' => q' = .fail failure
  | .note reading q, q' => stable reading →
    ∃ next, q' = .note reading next ∧ Inquiry.Padded good spare stable Eq q next
  | .ask c resume, q' => ∃ resume', q' = .ask c resume' ∧
    ∀ v, Inquiry.Padded good spare stable Eq (resume v) (resume' v)

/-- Asking for spare cells changes neither the memory nor what comes next. -/
theorem skip_spare (hblank : ∀ c, spare c → engine.holding c = .result (.ok .blank))
    (hM : engine.Faithful M) (hchain : ∀ x ∈ chain, engine.IsFormula x)
    {reader : Option CellAddress} {q q' : Inquiry Value}
    (hq : Inquiry.Padded good spare stable Eq q q')
    (h : Runs engine (.inquiry depth chain reader q') M s M' log) :
    ∃ q' log', Aligned good spare stable q q' ∧
      Runs engine (.inquiry depth chain reader q') M s M' log' := by
  induction hq generalizing log with
  | done hab => exact ⟨_, _, hab ▸ rfl, h⟩
  | fail failure => exact ⟨_, _, rfl, h⟩
  | note hnext _ => exact ⟨_, _, fun _ => ⟨_, rfl, hnext⟩, h⟩
  | unstable hunstable => exact ⟨_, _, fun hstable => absurd hstable hunstable, h⟩
  | ask _ hresume _ => exact ⟨_, _, ⟨_, rfl, hresume⟩, h⟩
  | @spare c q resume' hc _ ih =>
      have hholding := hblank c hc
      have hmem : c ∉ chain := by
        intro hmem
        obtain ⟨e, he⟩ := hchain c hmem
        rw [hholding] at he
        cases he
      cases h with
      | asked h₁ hrest =>
          obtain ⟨hv, rfl⟩ := h₁.visit_settled hmem (fun _ => hM.isFormula) hholding
          cases hv
          exact ih hrest
      | askFailed h₁ =>
          obtain ⟨hv, -⟩ := h₁.visit_settled hmem (fun _ => hM.isFormula) hholding
          cases hv

/-- The second task is the first one for the second engine. What the first one reads is stable
and stays, and so do the cells under computation. -/
inductive Follows (engine engine' : Engine) (n : Nat) (stays good spare : CellAddress → Prop)
    (stable : Reading → Prop) : Task → Task → Prop where
  | cell {depth : Nat} {chain : List CellAddress} {c : CellAddress} :
      (∀ x ∈ chain, stays x ∧ engine'.IsFormula x ∧ ∃ N a, engine.plain N x = some a) →
      stays c →
      Follows engine engine' n stays good spare stable (.cell depth chain c) (.cell depth chain c)
  | inquiry {depth : Nat} {chain : List CellAddress} {reader : Option CellAddress}
      {q q' : Inquiry Value} :
      (∀ x ∈ chain, stays x ∧ engine'.IsFormula x ∧ ∃ N a, engine.plain N x = some a) →
      Inquiry.Padded good spare stable Eq q q' →
      (∀ reading ∈ q.readings (engine.plain n), stable reading) →
      (∀ y ∈ q.asked (engine.plain n), stays y) →
      Follows engine engine' n stays good spare stable (.inquiry depth chain reader q)
        (.inquiry depth chain reader q')

/-- All that the first memory remembers stays and is remembered by the second one. -/
def Fuller (stays : CellAddress → Prop) (m M : Memory) : Prop :=
  ∀ x, m.Remembers x → stays x ∧ M.Remembers x

variable (hcarries : Carries engine engine' stays good spare stable)
include hcarries

/-- The second engine follows the first one into the formula of a cell that stays. -/
theorem follows_inquiry (hu : engine.Uniform) (hu' : engine'.Uniform)
    (hchain : ∀ x ∈ chain, stays x ∧ engine'.IsFormula x ∧ ∃ N a, engine.plain N x = some a)
    (hstays : stays c) {e : Formula.Expr} (he : engine.holding c = .formula e) {d : Nat}
    (ht : engine.Attains n (.cell depth chain c) r) :
    ∃ k, engine.Attains k (.inquiry d (c :: chain) (some c) (engine.inquiry chain c e)) r ∧
      Follows engine engine' k stays good spare stable
        (.inquiry d (c :: chain) (some c) (engine.inquiry chain c e))
        (.inquiry d (c :: chain) (some c) (engine'.inquiry chain c e)) := by
  obtain ⟨k, -, hattains⟩ := ht.inquiry hu he
  obtain ⟨he', hpadded⟩ := hcarries.formula c hstays e he
  obtain ⟨hstable, hasked⟩ := hcarries.reads c hstays r _ _ (hattains.computes hu he)
  refine ⟨k, hattains, .inquiry ?_ ?_ hstable hasked⟩
  · exact List.forall_mem_cons.mpr ⟨⟨hstays, ⟨e, he'⟩, n, r, ht.1⟩, hchain⟩
  · rw [hu chain c e, hu' chain c e]
    exact hpadded

/-- The second run goes on as the inquiry that it follows, once it has asked for spare cells. -/
theorem follows_aligned {reader : Option CellAddress} {q : Inquiry Value}
    (hfollows : Follows engine engine' n stays good spare stable
      (.inquiry depth chain reader q) task')
    (h' : Runs engine' task' M s' M' log') (hM : engine'.Faithful M) :
    (∃ q' log', Aligned good spare stable q q' ∧
        Runs engine' (.inquiry depth chain reader q') M s' M' log') ∧
      (∀ x ∈ chain, stays x ∧ engine'.IsFormula x ∧ ∃ N a, engine.plain N x = some a) ∧
      (∀ reading ∈ q.readings (engine.plain n), stable reading) ∧
      ∀ y ∈ q.asked (engine.plain n), stays y := by
  cases hfollows with
  | inquiry hchain hq hstable hstays =>
      refine ⟨?_, hchain, hstable, hstays⟩
      exact h'.skip_spare hcarries.blank hM (fun x hx => (hchain x hx).2.1) hq

/-- A visit to a cell that the second memory remembers. -/
theorem carried_remembered (hu : engine.Uniform)
    (h : Runs engine (.cell depth chain c) m s m' log)
    (h' : Runs engine' (.cell depth chain c) M s' M' log') (hc : c ∉ chain) (hstays : stays c)
    (hm : engine.Faithful m) (hM : engine'.Faithful M) (hmore : Fuller stays m M)
    (ht : engine.Attains n (.cell depth chain c) r)
    (hdeep : s ≠ .error (.tooDeep engine.settings.maxDepth)) (hw : M.Remembers c) :
    s' = s ∧ Fuller stays m' M' := by
  obtain ⟨w, hw⟩ := hw
  obtain ⟨rfl, rfl⟩ := h'.visit_remembered hc (fun _ => hM.isFormula) hw
  obtain ⟨-, rfl | ⟨hs, -⟩, -⟩ := h.attains hu hm ht
  · obtain ⟨k, hk⟩ := hM.plain hw
    refine ⟨plain_unique hk (hcarries.plain hstays ht.1), fun x hx => ?_⟩
    have hclosed : engine.Closed fun x => stays x ∧ M'.Remembers x := by
      rintro x ⟨hx, v, hv⟩ r readings asked hcomputes y hy he
      obtain ⟨readings', asked', hcomputes', -, hremembers⟩ := hM x v hv
      obtain ⟨asked'', hcomputes'', hasked, -⟩ := hcarries.computes hx hcomputes
      obtain ⟨-, -, rfl⟩ := hcomputes'.unique hcomputes''
      have hy' : stays y := (hcarries.reads x hx r readings asked hcomputes).2 y hy
      exact ⟨hy', hremembers y (hasked y hy) ((hcarries.isFormula hy').mp he)⟩
    obtain hx | hx := h.remembers_within hu hm ht hclosed (fun _ => ⟨hstays, w, hw⟩) hx
    · exact hmore x hx
    · exact hx
  · exact absurd hs hdeep

/-- A visit to a cell whose formula is computed. If the second memory does not remember the cell,
it computes the formula too, so it takes a counterpart of the computation. -/
theorem carried_formula (hu : engine.Uniform) (hu' : engine'.Uniform)
    (hremember : engine.settings.remember = engine'.settings.remember)
    (h : Runs engine (.cell (depth + 1) chain c) m s m' log)
    (h' : Runs engine' (.cell (depth + 1) chain c) M s' M' log') (hc : c ∉ chain)
    (hchain : ∀ x ∈ chain, stays x ∧ engine'.IsFormula x ∧ ∃ N a, engine.plain N x = some a)
    (hstays : stays c) {e : Formula.Expr} (he : engine.holding c = .formula e)
    (hm : engine.Faithful m) (hM : engine'.Faithful M) (hmore : Fuller stays m M)
    (ht : engine.Attains n (.cell (depth + 1) chain c) r)
    (hdeep : s ≠ .error (.tooDeep engine.settings.maxDepth)) {m₁ : Memory}
    (hkeep : ∀ v, s = .ok v → m' = m₁.keep engine.settings.remember c v)
    (hsame : ∀ failure, s = .error failure → m' = m₁)
    (hcounterpart : ∀ {k formulas M₁ log₁}, M.values[c]? = none →
      engine.Attains k (.inquiry depth (c :: chain) (some c) (engine.inquiry chain c e)) r →
      Follows engine engine' k stays good spare stable
        (.inquiry depth (c :: chain) (some c) (engine.inquiry chain c e))
        (.inquiry depth (c :: chain) (some c) (engine'.inquiry chain c e)) →
      Runs engine' (.inquiry depth (c :: chain) (some c) (engine'.inquiry chain c e))
        (Memory.forget { M with formulas } c) s' M₁ log₁ → s' = s ∧ Fuller stays m₁ M₁) :
    s' = s ∧ Fuller stays m' M' := by
  by_cases hw : M.Remembers c
  · exact carried_remembered hcarries hu h h' hc hstays hm hM hmore ht hdeep hw
  have hnone : M.values[c]? = none :=
    Option.eq_none_iff_forall_ne_some.mpr fun w hv => hw ⟨w, hv⟩
  obtain ⟨k, hattains, hfollows⟩ := follows_inquiry hcarries hu hu' hchain hstays he ht
  have he' := (hcarries.formula c hstays _ he).1
  obtain ⟨_, M₁, _, hrun, hkeep', hsame'⟩ := h'.visit_formula hc he' hnone
  obtain ⟨rfl, hmore₁⟩ := hcounterpart hnone hattains hfollows hrun
  refine ⟨rfl, ?_⟩
  cases s' with
  | error failure =>
      rw [hsame failure rfl, hsame' failure rfl]
      exact hmore₁
  | ok v =>
      rw [hkeep v rfl, hkeep' v rfl, ← hremember]
      intro x hx
      rw [Memory.remembers_keep]
      obtain ⟨hremembers, rfl⟩ | hx := Memory.remembers_keep.mp hx
      · exact ⟨hstays, .inl ⟨hremembers, rfl⟩⟩
      · exact (hmore₁ x hx).imp_right .inr

/-- A run that does not give up has its counterpart in every run of the second engine that starts
with more values remembered: it gives the same result, and still remembers more. -/
theorem carried (hu : engine.Uniform) (hu' : engine'.Uniform)
    (hremember : engine.settings.remember = engine'.settings.remember)
    (h : Runs engine task m s m' log) (h' : Runs engine' task' M s' M' log')
    (hfollows : Follows engine engine' n stays good spare stable task task')
    (hm : engine.Faithful m) (hM : engine'.Faithful M) (hmore : Fuller stays m M)
    (ht : engine.Attains n task r)
    (hdeep : s ≠ .error (.tooDeep engine.settings.maxDepth)) :
    s' = s ∧ Fuller stays m' M' := by
  -- by induction on the first run; the second one is opened step by step beside it, and `Fuller`
  -- and faithfulness are what the two memories keep in common
  induction h generalizing task' M s' M' log' n r with
  | circle hc =>
      -- a cell under computation attains nothing, so the first run meets no circle
      have hnone := ht.2 _ hc
      have hsome := ht.1
      simp only [outcome] at hsome
      rw [hsome] at hnone
      cases hnone
  | settled hc hr =>
      cases hfollows with
      | cell _ hstays =>
          obtain ⟨rfl, rfl⟩ := h'.visit_settled hc (fun _ => hM.isFormula)
            (hcarries.settled _ hstays _ hr)
          exact ⟨rfl, hmore⟩
  | remembered hc hv =>
      cases hfollows with
      | cell _ hstays =>
          exact carried_remembered hcarries hu (.remembered hc hv) h' hc hstays hm hM hmore ht
            hdeep (hmore _ ⟨_, hv⟩).2
  | tooDeep hc he hnone => exact absurd rfl hdeep
  | computed hc he hnone hrun ih =>
      cases hfollows with
      | cell hchain hstays =>
          refine carried_formula hcarries hu hu' hremember (.computed hc he hnone hrun) h' hc hchain
            hstays he hm hM hmore ht hdeep (fun v hv => by cases hv; rfl)
            (fun failure hs => by cases hs) ?_
          intro k _ _ _ hnone' hattains hfollows hrun'
          exact ih hrun' hfollows (hm.forget hnone) (hM.forget hnone') hmore hattains hdeep
  | failed hc he hnone hrun ih =>
      cases hfollows with
      | cell hchain hstays =>
          refine carried_formula hcarries hu hu' hremember (.failed hc he hnone hrun) h' hc hchain
            hstays he hm hM hmore ht hdeep (fun v hv => by cases hv) (fun failure hs => rfl) ?_
          intro k _ _ _ hnone' hattains hfollows hrun'
          exact ih hrun' hfollows (hm.forget hnone) (hM.forget hnone') hmore hattains hdeep
  | done =>
      obtain ⟨⟨_, _, rfl, h'⟩, -⟩ := follows_aligned hcarries hfollows h' hM
      cases h'
      exact ⟨rfl, hmore⟩
  | fail =>
      obtain ⟨⟨_, _, rfl, h'⟩, -⟩ := follows_aligned hcarries hfollows h' hM
      cases h'
      exact ⟨rfl, hmore⟩
  | @note _ _ reader _ _ note _ _ _ _ ih =>
      obtain ⟨⟨_, _, haligned, h'⟩, hchain, hstable, hstays⟩ :=
        follows_aligned hcarries hfollows h' hM
      obtain ⟨next, rfl, hnext⟩ := haligned (hstable _ List.mem_cons_self)
      cases h' with
      | note h' =>
          refine ih h' (.inquiry hchain hnext ?_ hstays) (hm.noted reader note)
            (hM.noted reader note) (fun x hx => ?_) ht hdeep
          · exact fun r hr => hstable r (List.mem_cons_of_mem _ hr)
          · exact (hmore x (Memory.remembers_noted.mp hx)).imp_right Memory.remembers_noted.mpr
  | @asked depth chain _ _ _ _ d resume v _ _ _ h₁ hrest ih₁ ih =>
      obtain ⟨⟨_, _, ⟨resume', rfl, hresume⟩, h'⟩, hchain, hstable, hstays⟩ :=
        follows_aligned hcarries hfollows h' hM
      have hd : stays d := hstays d (Inquiry.mem_asked_ask _ _)
      -- what is asked for is attained, and so is the rest, so both parts are carried
      obtain ⟨hm₁, hask, hrest'⟩ := h₁.attains_rest hu hm ht
      have hplain : engine.plain n d = some (.ok v) := hask.1
      simp only [Inquiry.readings, Inquiry.asked, hplain, List.forall_mem_cons]
        at hstable hstays
      cases h' with
      | asked h₁' hrest'' =>
          obtain ⟨hv, hmore₁⟩ := ih₁ h₁' (.cell hchain hd) hm hM hmore hask (by simp)
          cases hv
          have hask' := hcarries.attains
            (fun x hx => ⟨(hchain x hx).1, (hchain x hx).2.2⟩) hd hask
          exact ih hrest'' (.inquiry hchain (hresume v) hstable hstays.2) hm₁
            (h₁'.attains hu' hM hask').1 hmore₁ hrest' hdeep
      | askFailed h₁' =>
          -- the second run cannot fail where the first one was answered
          obtain ⟨hv, -⟩ := ih₁ h₁' (.cell hchain hd) hm hM hmore hask (by simp)
          cases hv
  | @askFailed depth chain _ _ _ d _ _ _ h₁ ih =>
      obtain ⟨⟨_, _, ⟨resume', rfl, hresume⟩, h'⟩, hchain, -, hstays⟩ :=
        follows_aligned hcarries hfollows h' hM
      have hd : stays d := hstays d (Inquiry.mem_asked_ask _ _)
      obtain ⟨a, hask⟩ := ht.answer
      cases h' with
      | asked h₁' _ =>
          obtain ⟨hv, -⟩ := ih h₁' (.cell hchain hd) hm hM hmore hask hdeep
          cases hv
      | askFailed h₁' =>
          exact ih h₁' (.cell hchain hd) hm hM hmore hask hdeep

end Runs

end Spreadsheet
