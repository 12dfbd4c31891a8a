-- SUMMARY: What a value is computed from, and that a successful run records and shows all of it.
import Spreadsheet.Proofs.Circles

/-!
# What a value needs

A cell needs the cells that its formula asks for, and what these need in turn. When a cell
has been computed, with or without remembering values, the readings of all formulas it
needs are recorded, and each of them was either remembered before or computed meanwhile.
-/

namespace Spreadsheet

open Std

namespace Engine

variable {engine : Engine} {n : Nat} {c x y : CellAddress} {m : Memory}

/-- The formula of the first cell asks for the second one. -/
def Asks (engine : Engine) (x y : CellAddress) : Prop :=
  ∃ r readings asked, engine.Computes x r readings asked ∧ y ∈ asked

/-- The second cell is the first one, or the value of the first one is computed from it. -/
def Needs (engine : Engine) : CellAddress → CellAddress → Prop := Relation.ReflTransGen engine.Asks

/-- All that the formula of the cell noted is recorded. -/
def Recorded (engine : Engine) (m : Memory) (x : CellAddress) : Prop :=
  ∀ r readings asked, engine.Computes x r readings asked →
    ∀ reading ∈ readings, reading.precedent ∈ m.precedents x

/-- The events tell of a computation of the cell. -/
def ComputedIn (events : List Event) (y : CellAddress) : Prop :=
  ∃ w readings asked, .computed y w readings asked ∈ events

theorem ComputedIn.mono {events events' : List Event} (h : ComputedIn events y)
    (hsubset : events ⊆ events') : ComputedIn events' y := by
  obtain ⟨w, readings, asked, hmem⟩ := h
  exact ⟨w, readings, asked, hsubset hmem⟩

/-- A task needs what its cell, or the cells it asks for, need. -/
def TaskNeeds (engine : Engine) (n : Nat) (y : CellAddress) : Task → Prop
  | .cell _ _ c => engine.Needs c y
  | .inquiry _ _ _ q => ∃ c ∈ q.asked (engine.plain n), engine.Needs c y

theorem Asks.isFormula (h : engine.Asks x y) : engine.IsFormula x := by
  obtain ⟨r, readings, asked, ⟨e, -, he, -⟩, -⟩ := h
  exact ⟨e, he⟩

/-- A cell without a formula needs nothing else. -/
theorem Needs.eq_of_not_isFormula (h : engine.Needs c y) (hc : ¬ engine.IsFormula c) : y = c := by
  obtain rfl | ⟨d, hd, -⟩ := Relation.ReflTransGen.cases_head h
  · rfl
  · exact absurd hd.isFormula hc

/-- Where there is a value, all that it needs has one at the same bound. -/
theorem Needs.plain (h : engine.Needs c y) {r : Except Failure Value}
    (hr : engine.plain n c = some r) : ∃ a, engine.plain n y = some a := by
  induction h with
  | refl => exact ⟨r, hr⟩
  | @tail y z _ hasks ih =>
      obtain ⟨a, ha⟩ := ih
      obtain ⟨r, readings, asked, hcomputes, hz⟩ := hasks
      obtain ⟨e, -, he, -⟩ := id hcomputes
      obtain ⟨k, hk, hka, -⟩ := exists_computes he ha
      obtain ⟨-, -, rfl⟩ := hcomputes.unique ⟨e, k, he, hka, rfl, rfl⟩
      obtain ⟨b, hb⟩ := Inquiry.exists_answer hka hz
      exact ⟨b, plain_mono (Nat.le_of_lt hk) hb⟩

/-- With a remembered cell, all formulas that it needs are remembered. -/
theorem Faithful.remembers_of_needs (hm : engine.Faithful m) (h : engine.Needs c y)
    (hc : m.Remembers c) (hy : engine.IsFormula y) : m.Remembers y := by
  induction h with
  | refl => exact hc
  | @tail y z _ hasks ih =>
      obtain ⟨v, hv⟩ := ih hasks.isFormula
      obtain ⟨readings, asked, hcomputes, -, hremembers⟩ := hm y v hv
      obtain ⟨_, _, _, hcomputes', hz⟩ := hasks
      obtain ⟨-, -, rfl⟩ := hcomputes.unique hcomputes'
      exact hremembers z hz hy

theorem Faithful.recorded (hm : engine.Faithful m) (hy : m.Remembers y) :
    engine.Recorded m y := by
  obtain ⟨v, hv⟩ := hy
  obtain ⟨readings, asked, hcomputes, hrecorded, -⟩ := hm y v hv
  intro r readings' asked' hcomputes'
  obtain ⟨-, rfl, -⟩ := hcomputes.unique hcomputes'
  exact hrecorded

theorem recorded_forget (h : engine.Recorded m y) (hne : c ≠ y)
    {formulas : TreeMap String Formula.Expr} :
    engine.Recorded (Memory.forget { m with formulas } c) y :=
  fun r readings asked hcomputes reading hreading =>
    Memory.mem_precedents_forget.mpr ⟨hne, h r readings asked hcomputes reading hreading⟩

end Engine

namespace Runs

open Engine

variable {engine : Engine} {task : Task} {m m' : Memory} {s r : Except Failure Value} {log : Log}
  {n : Nat} {y : CellAddress}

/-- What the formula of a computed cell noted is recorded afterwards. -/
theorem recorded_self (hu : engine.Uniform) {depth : Nat} {chain : List CellAddress}
    {cell : CellAddress} {e : Formula.Expr} {v : Value}
    (h : Runs engine (.inquiry depth (cell :: chain) (some cell) (engine.inquiry chain cell e)) m
      (.ok v) m' log) (hm : engine.Faithful m) (he : engine.holding cell = .formula e)
    (ht : engine.Attains n
      (.inquiry depth (cell :: chain) (some cell) (engine.inquiry chain cell e)) r) :
    engine.Recorded m' cell ∧ engine.Computes cell r log.readings log.asked := by
  obtain ⟨-, -, htells⟩ := h.attains hu hm ht
  obtain ⟨hread, hasked, -⟩ := htells v rfl
  have hcomputes : engine.Computes cell r log.readings log.asked := by
    rw [hread, hasked]
    exact ht.computes hu he
  refine ⟨fun r' readings asked hcomputes' reading hreading => ?_, hcomputes⟩
  obtain ⟨-, rfl, -⟩ := hcomputes.unique hcomputes'
  exact h.readings_recorded rfl List.mem_cons_self hreading

/-- A successful run leaves recorded what was recorded of cells that are not under computation. -/
theorem recorded_grow (hu : engine.Uniform) (h : Runs engine task m s m' log)
    (hm : engine.Faithful m) (ht : engine.Attains n task r) {v : Value} (hs : s = .ok v)
    (hchain : y ∉ task.chain) (hy : engine.Recorded m y) : engine.Recorded m' y := by
  induction h generalizing n r v with
  | circle _ => exact hy
  | settled _ _ => exact hy
  | remembered _ _ => exact hy
  | tooDeep _ _ _ => exact hy
  | @computed _ chain cell _ m' _ _ w _ hc he hnone hrun ih =>
      obtain ⟨k, -, hattains⟩ := ht.inquiry hu he
      have hkeep (h : engine.Recorded m' y) :
          engine.Recorded (m'.keep engine.settings.remember cell w) y := by
        intro r readings asked hcomputes
        rw [Memory.precedents_keep]
        exact h r readings asked hcomputes
      by_cases hcell : cell = y
      · exact hkeep (hcell ▸ (recorded_self hu hrun (hm.forget hnone) he hattains).1)
      · refine hkeep (ih (hm.forget hnone) hattains rfl ?_ (recorded_forget hy hcell))
        exact fun hmem => (List.mem_cons.mp hmem).elim (fun h => hcell h.symm) hchain
  | failed _ _ _ _ _ => cases hs
  | done => exact hy
  | fail => cases hs
  | @note _ _ reader _ _ note _ _ _ _ ih =>
      refine ih (hm.noted reader note) ht hs hchain ?_
      exact fun r readings asked hcomputes reading hreading =>
        Memory.mem_precedents_noted.mpr (.inr (hy r readings asked hcomputes reading hreading))
  | asked h₁ _ ih₁ ih =>
      obtain ⟨hm₁, hc, hrest⟩ := h₁.attains_rest hu hm ht
      exact ih hm₁ hrest hs hchain (ih₁ hm hc rfl hchain hy)
  | askFailed _ _ => cases hs

/-- What is remembered after a run was remembered before or computed meanwhile. -/
theorem remembers_or_computed (h : Runs engine task m s m' log) (hy : m'.Remembers y) :
    m.Remembers y ∨ ComputedIn log.events y := by
  induction h with
  | circle _ => exact .inl hy
  | settled _ _ => exact .inl hy
  | remembered _ _ => exact .inl hy
  | tooDeep _ _ _ => exact .inl hy
  | @computed _ _ cell _ _ _ _ w log _ _ _ _ ih =>
      obtain ⟨-, rfl⟩ | hy := Memory.remembers_keep.mp hy
      · exact .inr ⟨w, log.readings, log.asked,
          List.mem_append_right _ (List.mem_singleton.mpr rfl)⟩
      · exact (ih hy).imp_right (·.mono (List.subset_append_left _ _))
  | failed _ _ _ _ ih => exact ih hy
  | done => exact .inl hy
  | fail => exact .inl hy
  | note _ ih => exact (ih hy).imp_left Memory.remembers_noted.mp
  | asked _ _ ih₁ ih =>
      obtain hy | hcomputed := ih hy
      · exact (ih₁ hy).imp_right (·.mono (List.subset_append_left _ _))
      · exact .inr (hcomputed.mono (List.subset_append_right _ _))
  | askFailed _ ih => exact ih hy

/-- What is seen to be computed is what the formula computes. -/
theorem computes_of_event (hu : engine.Uniform) (h : Runs engine task m s m' log)
    (hm : engine.Faithful m) (ht : engine.Attains n task r) {w : Value} {readings : List Reading}
    {asked : List CellAddress} (hevent : .computed y w readings asked ∈ log.events) :
    engine.Computes y (.ok w) readings asked := by
  induction h generalizing n r with
  | circle _ => cases List.mem_singleton.mp hevent
  | settled _ _ => cases hevent
  | remembered _ _ => cases hevent
  | tooDeep _ _ _ => cases hevent
  | computed hc he hnone hrun ih =>
      obtain ⟨k, -, hattains⟩ := ht.inquiry hu he
      obtain hevent | hevent := List.mem_append.mp hevent
      · exact ih (hm.forget hnone) hattains hevent
      · cases List.mem_singleton.mp hevent
        obtain ⟨-, rfl | ⟨hs, -⟩, -⟩ := hrun.attains hu (hm.forget hnone) hattains
        · exact (recorded_self hu hrun (hm.forget hnone) he hattains).2
        · cases hs
  | failed hc he hnone _ ih =>
      obtain ⟨k, -, hattains⟩ := ht.inquiry hu he
      exact ih (hm.forget hnone) hattains hevent
  | done => cases hevent
  | fail => cases hevent
  | @note _ _ reader _ _ note _ _ _ _ ih => exact ih (hm.noted reader note) ht hevent
  | asked h₁ _ ih₁ ih =>
      obtain ⟨hm₁, hc, hrest⟩ := h₁.attains_rest hu hm ht
      obtain hevent | hevent := List.mem_append.mp hevent
      · exact ih₁ hm hc hevent
      · exact ih hm₁ hrest hevent
  | askFailed _ ih =>
      obtain ⟨a, hc⟩ := ht.answer
      exact ih hm hc hevent

/-- After a successful run, the readings of all formulas that the task needs are recorded, and each
of them was remembered before or computed meanwhile. -/
theorem needs_recorded (hu : engine.Uniform) (h : Runs engine task m s m' log)
    (hm : engine.Faithful m) (ht : engine.Attains n task r) {v : Value} (hs : s = .ok v)
    (hneeds : engine.TaskNeeds n y task) (hy : engine.IsFormula y) :
    engine.Recorded m' y ∧ (m.Remembers y ∨ ComputedIn log.events y) := by
  induction h generalizing n r v with
  | circle hc =>
      have hnone := ht.2 _ hc
      have hsome := ht.1
      simp only [outcome] at hsome
      rw [hsome] at hnone
      cases hnone
  | @settled _ _ cell _ _ _ hr =>
      have hnot : ¬ engine.IsFormula cell := by
        rintro ⟨e, he⟩
        rw [hr] at he
        cases he
      exact absurd hy (hneeds.eq_of_not_isFormula hnot ▸ hnot)
  | remembered _ hv =>
      have hremembers := hm.remembers_of_needs hneeds ⟨_, hv⟩ hy
      exact ⟨hm.recorded hremembers, .inl hremembers⟩
  | tooDeep _ _ _ => cases hs
  | @computed _ chain cell _ m' e _ w log hc he hnone hrun ih =>
      obtain ⟨k, -, hattains⟩ := ht.inquiry hu he
      obtain ⟨-, -, htells⟩ := hrun.attains hu (hm.forget hnone) hattains
      obtain ⟨hself, hcomputes⟩ := recorded_self hu hrun (hm.forget hnone) he hattains
      obtain ⟨-, hasked, -⟩ := htells w rfl
      simp only [Recorded, Memory.precedents_keep]
      obtain rfl | ⟨d, ⟨_, _, _, hcomputes', hd⟩, hneeds⟩ :=
        Relation.ReflTransGen.cases_head hneeds
      · refine ⟨hself, .inr ⟨w, log.readings, log.asked, ?_⟩⟩
        exact List.mem_append_right _ (List.mem_singleton.mpr rfl)
      · obtain ⟨-, -, rfl⟩ := hcomputes.unique hcomputes'
        obtain ⟨hrecorded, hseen⟩ :=
          ih (hm.forget hnone) hattains rfl ⟨d, hasked ▸ hd, hneeds⟩
        exact ⟨hrecorded, hseen.imp_right (·.mono (List.subset_append_left _ _))⟩
  | failed _ _ _ _ _ => cases hs
  | done =>
      obtain ⟨c, hc, -⟩ := hneeds
      cases hc
  | fail => cases hs
  | @note _ _ reader _ _ note _ _ _ _ ih =>
      obtain ⟨hrecorded, hseen⟩ := ih (hm.noted reader note) ht hs hneeds
      exact ⟨hrecorded, hseen.imp_left Memory.remembers_noted.mp⟩
  | @asked _ chain _ _ _ _ d _ v' _ _ _ h₁ hrest ih₁ ih =>
      obtain ⟨hm₁, hc, hrest'⟩ := h₁.attains_rest hu hm ht
      have hplain : engine.plain n d = some (.ok v') := hc.1
      obtain ⟨c, hmem, hneeds⟩ := hneeds
      simp only [Inquiry.asked, hplain, List.mem_cons] at hmem
      obtain rfl | hmem := hmem
      · -- what the first question needs stays recorded until the end
        obtain ⟨hrecorded, hseen⟩ := ih₁ hm hc rfl hneeds
        have hchain : y ∉ chain := fun hmem => by
          obtain ⟨a, ha⟩ := hneeds.plain hplain
          have hnone : engine.plain n y = none := hc.2 y hmem
          rw [hnone] at ha
          cases ha
        refine ⟨hrest.recorded_grow hu hm₁ hrest' hs hchain hrecorded, ?_⟩
        exact hseen.imp_right (·.mono (List.subset_append_left _ _))
      · obtain ⟨hrecorded, hseen⟩ := ih hm₁ hrest' hs ⟨c, hmem, hneeds⟩
        refine ⟨hrecorded, ?_⟩
        obtain hremembers | hcomputed := hseen
        · exact (h₁.remembers_or_computed hremembers).imp_right
            (·.mono (List.subset_append_left _ _))
        · exact .inr (hcomputed.mono (List.subset_append_right _ _))
  | askFailed _ _ => cases hs

end Runs

namespace Engine

variable {engine : Engine} {n : Nat} {x y : CellAddress} {v : Value}

/-- Computed afresh and nested as deep as its value takes, a cell comes to the value. -/
theorem runs_of_plain (hu : engine.Uniform) (h : engine.plain n x = some (.ok v)) :
    engine.Faithful {} ∧ engine.Attains n (.cell n [] x) (.ok v) ∧
      ∃ m', Runs engine (.cell n [] x) {} (.ok v) m' { events := engine.events n [] x {} } := by
  have hfaithful : engine.Faithful {} := faithful_of_values_empty fun x => by simp
  have hattains : engine.Attains n (.cell n [] x) (.ok v) := ⟨h, by simp [Task.chain]⟩
  obtain ⟨s, m', -, -, hrun⟩ := visits n [] x engine.formulasRead_empty
  obtain ⟨-, rfl | ⟨-, hlt⟩, -⟩ := hrun.attains hu hfaithful hattains
  · exact ⟨hfaithful, hattains, m', hrun⟩
  · exact absurd hlt (Nat.lt_irrefl n)

/-- What is seen to be computed for a cell that no circle is met from is what its formula
computes. -/
theorem CircleFree.computes_of_event (hu : engine.Uniform) (hx : engine.CircleFree x) {depth : Nat}
    {readings : List Reading} {asked : List CellAddress}
    (hevent : .computed y v readings asked ∈ engine.events depth [] x {}) :
    engine.Computes y (.ok v) readings asked := by
  obtain ⟨n, r, hr⟩ := exists_plain hu hx
  obtain ⟨s, m', -, -, hrun⟩ := visits depth [] x engine.formulasRead_empty
  have hattains : engine.Attains n (.cell depth [] x) r := ⟨hr, by simp [Task.chain]⟩
  exact hrun.computes_of_event hu (faithful_of_values_empty fun x => by simp) hattains hevent

/-- All that a value needs is seen to be computed when its cell is computed afresh. -/
theorem Needs.event (hu : engine.Uniform) (h : engine.Needs x y) (hy : engine.IsFormula y)
    (hx : engine.plain n x = some (.ok v)) {r : Except Failure Value} {readings : List Reading}
    {asked : List CellAddress} (hcomputes : engine.Computes y r readings asked) :
    ∃ depth w, .computed y w readings asked ∈ engine.events depth [] x {} := by
  obtain ⟨hfaithful, hattains, m', hrun⟩ := runs_of_plain hu hx
  obtain ⟨-, ⟨v, hv⟩ | ⟨w, readings', asked', hevent⟩⟩ :=
    hrun.needs_recorded hu hfaithful hattains rfl h hy
  · simp at hv
  · obtain ⟨-, rfl, rfl⟩ := hcomputes.unique (hrun.computes_of_event hu hfaithful hattains hevent)
    exact ⟨n, w, hevent⟩

end Engine

end Spreadsheet
