-- SUMMARY: Calls end, keep their stack and set together, and are too deep only on a long chain of formulas.
import Mathlib.Data.List.Chain
import Spreadsheet.Proofs.Machine

/-!
# Call chains

While a query is answered, the set in progress holds the cells of the stack, no cell is on the stack
twice, and the stack has a limited height. What a moment keeps of this the next one keeps. A query
fails because formulas are nested too deep only if so many formula cells are on a chain, each of them
asking for the next one.
-/

namespace Spreadsheet

open Std Evaluation Relation

variable {engine : Engine} {s t : Moment} {cell : CellAddress}

/-! ## Stack and set -/

/-- The cell whose formula waits. -/
def Waiting.cell? : Waiting → Option CellAddress
  | .formula cell => some cell
  | .inquiry _ => none

/-- Stack, set and what waits are about the same cells, and the stack is not too high. -/
structure Engine.Tracks (engine : Engine) (s : Moment) : Prop where
  waiting : s.waiting.filterMap Waiting.cell? = s.stack
  set : s.inProgress = s.stack.toFinset
  nodup : s.stack.Nodup
  height : s.stack.length ≤ engine.settings.maxDepth

namespace Engine.Tracks

theorem answered (h : engine.Tracks s) (result : Except Failure Value × Memory) :
    engine.Tracks (s.answered result) :=
  ⟨h.waiting, h.set, h.nodup, h.height⟩

theorem compute {e : Formula.Expr} {m : Memory} (h : engine.Tracks s) (hmem : cell ∉ s.inProgress)
    (hfree : s.stack.length < engine.settings.maxDepth) :
    engine.Tracks (engine.compute s cell e m) where
  waiting := congrArg (cell :: ·) h.waiting
  set := by
    change insert cell s.inProgress = (cell :: s.stack).toFinset
    rw [List.toFinset_cons, h.set]
  nodup := List.nodup_cons.mpr ⟨fun hc => hmem (h.set ▸ List.mem_toFinset.mpr hc), h.nodup⟩
  height := hfree

/-- A cell that is left is the innermost one of the stack. -/
theorem leave {waiting : List Waiting} (h : engine.Tracks s)
    (hwaiting : s.waiting = .formula cell :: waiting) {m : Memory} :
    engine.Tracks { s.leave cell with waiting, memory := m } := by
  have hstack : s.stack = cell :: waiting.filterMap Waiting.cell? := by
    rw [← h.waiting, hwaiting]
    rfl
  have hnodup := h.nodup
  rw [hstack, List.nodup_cons] at hnodup
  refine ⟨?_, ?_, ?_, ?_⟩
  · change waiting.filterMap Waiting.cell? = s.stack.tail
    rw [hstack, List.tail_cons]
  · change s.inProgress.erase cell = s.stack.tail.toFinset
    rw [h.set, hstack, List.toFinset_cons, List.tail_cons, Finset.erase_insert]
    rw [List.mem_toFinset]
    exact hnodup.1
  · change s.stack.tail.Nodup
    rw [hstack, List.tail_cons]
    exact hnodup.2
  · exact Nat.le_trans (List.length_tail ▸ Nat.sub_le _ _) h.height

/-- What one moment tracks, the next one does. -/
theorem step (h : engine.Tracks s) (hstep : engine.Step s t) : engine.Tracks t := by
  cases hstep with
  | visited _ hvisited =>
      cases hvisited with
      | circle _ => exact h.answered _
      | settled _ _ _ => exact h.answered _
      | full _ _ _ _ => exact h.answered _
      | entered hmem _ _ hfree => exact h.compute hmem hfree
  | done _ => exact h.answered _
  | failed _ => exact h.answered _
  | noted _ => exact ⟨h.waiting, h.set, h.nodup, h.height⟩
  | asked _ => exact ⟨h.waiting, h.set, h.nodup, h.height⟩
  | resumed _ hwaiting =>
      have hstack := h.waiting
      rw [hwaiting] at hstack
      exact ⟨hstack, h.set, h.nodup, h.height⟩
  | passed _ hwaiting =>
      have hstack := h.waiting
      rw [hwaiting] at hstack
      exact ⟨hstack, h.set, h.nodup, h.height⟩
  | left hwaiting => exact h.leave hwaiting

theorem start (q : Inquiry Value) (m : Memory) : engine.Tracks (.start q m) :=
  ⟨rfl, rfl, List.nodup_nil, Nat.zero_le _⟩

/-- A call tracks its stack at all moments. -/
theorem reaches (h : engine.Tracks s) (hreaches : engine.Reaches s t) : engine.Tracks t := by
  induction hreaches with
  | refl => exact h
  | tail _ hnext ih => exact ih.step (step_of_next? hnext)

/-- The evaluation of a cell comes to a result and leaves stack and set as it found them. -/
theorem exists_answered (h : engine.Tracks s) (hcontrol : s.control = .visit cell) :
    ∃ result, engine.Inside s.waiting s (s.answered result) :=
  ⟨_, inside_visit hcontrol h.set (Nat.add_sub_of_le h.height)⟩

end Engine.Tracks

/-! ## Calls -/

namespace Evaluator

variable {ev : Evaluator} {query : Query} {cells : List CellAddress}

/-- A moment of the call that answers the query. -/
def Passes (ev : Evaluator) (query : Query) (s : Moment) : Prop :=
  ∃ q m, (query.prepare ev.toEngine).on ev.memory = (.ok q, m) ∧ ev.toEngine.Reaches (.start q m) s

/-- While the query is answered, the evaluation of the first cell asks for the second one. -/
def AsksFor (ev : Evaluator) (query : Query) (c d : CellAddress) : Prop :=
  ∃ s, ev.Passes query s ∧ s.stack.head? = some c ∧ s.control = .visit d

/-- While the query is answered, different formula cells are evaluated, each of which asks for the
next one. -/
structure Chain (ev : Evaluator) (query : Query) (cells : List CellAddress) : Prop where
  nodup : cells.Nodup
  formulas : ∀ c ∈ cells, ev.source.workbook.HasFormula c
  asks : cells.IsChain (ev.AsksFor query)

theorem Passes.tracks (h : ev.Passes query s) : ev.Tracks s := by
  obtain ⟨q, m, -, hreaches⟩ := h
  exact (Engine.Tracks.start q m).reaches hreaches

theorem chain_nil : ev.Chain query [] := ⟨List.nodup_nil, List.forall_mem_nil _, .nil⟩

/-- The chain of the stack goes on with the cell that is asked for. -/
theorem Chain.cons (h : ev.Chain query s.stack.reverse) (hs : ev.Passes query s)
    (hcontrol : s.control = .visit cell) (hmem : cell ∉ s.inProgress)
    (hformula : ev.source.workbook.HasFormula cell) :
    ev.Chain query (cell :: s.stack).reverse where
  nodup := by
    rw [List.nodup_reverse, List.nodup_cons]
    refine ⟨fun hc => hmem ?_, List.nodup_reverse.mp h.nodup⟩
    exact hs.tracks.set ▸ List.mem_toFinset.mpr hc
  formulas c hc := by
    obtain rfl | hc := List.mem_cons.mp (List.mem_reverse.mp hc)
    · exact hformula
    · exact h.formulas c (List.mem_reverse.mpr hc)
  asks := by
    rw [List.isChain_reverse, List.isChain_cons]
    exact ⟨fun c hc => ⟨s, hs, hc, hcontrol⟩, List.isChain_reverse.mp h.asks⟩

/-- Without its innermost cell the stack is still a chain. -/
theorem Chain.tail (h : ev.Chain query s.stack.reverse) : ev.Chain query s.stack.tail.reverse where
  nodup := List.nodup_reverse.mpr (List.nodup_reverse.mp h.nodup).tail
  formulas c hc :=
    h.formulas c (List.mem_reverse.mpr (List.mem_of_mem_tail (List.mem_reverse.mp hc)))
  asks := List.isChain_reverse.mpr (List.isChain_reverse.mp h.asks).tail

/-- The stack is a chain, and whatever fails because it is nested too deep does so at the end of a
chain that is one longer than the stack may be high. -/
structure Accounts (ev : Evaluator) (query : Query) (s : Moment) : Prop where
  chain : ev.Chain query s.stack.reverse
  inquires : ∀ q, s.control = .inquire q → q.Shallow
  resumes : ∀ resume, .inquiry resume ∈ s.waiting → ∀ v, (resume v).Shallow
  deep : ∀ limit, s.control = .answer (.error (.tooDeep limit)) →
    limit = ev.settings.maxDepth ∧ ∃ cells, cells.length = limit + 1 ∧ ev.Chain query cells

namespace Accounts

theorem answered (h : ev.Accounts query s) {r : Except Failure Value} {m : Memory}
    (hr : ∀ failure, r = .error failure → failure.Shallow) :
    ev.Accounts query (s.answered (r, m)) where
  chain := h.chain
  inquires := nofun
  resumes := h.resumes
  deep limit hlimit := absurd rfl (hr _ (Control.answer.inj hlimit) limit)

theorem visited (h : ev.Accounts query s) (hs : ev.Passes query s)
    (hcontrol : s.control = .visit cell) (hvisited : ev.Visited s cell t) :
    ev.Accounts query t := by
  cases hvisited with
  | circle _ => exact h.answered nofun
  | settled _ _ hshallow => exact h.answered hshallow
  | full hmem _ hformula hfull =>
      -- the cells of a full stack and the one that is asked for are one too many
      refine ⟨h.chain, nofun, h.resumes, ?_⟩
      rintro limit ⟨⟩
      have hheight : s.stack.length = ev.settings.maxDepth :=
        Nat.le_antisymm hs.tracks.height hfull
      refine ⟨rfl, _, ?_, h.chain.cons hs hcontrol hmem hformula⟩
      rw [List.length_reverse, List.length_cons, hheight]
  | entered hmem _ hformula _ =>
      refine ⟨h.chain.cons hs hcontrol hmem hformula, ?_, ?_, nofun⟩
      · rintro q ⟨⟩
        exact Formula.Expr.shallow_value _
      · intro resume hresume
        obtain hresume | hresume := List.mem_cons.mp hresume
        · cases hresume
        · exact h.resumes resume hresume

theorem step (h : ev.Accounts query s) (hs : ev.Passes query s) (hstep : ev.toEngine.Step s t) :
    ev.Accounts query t := by
  cases hstep with
  | visited hcontrol hvisited => exact h.visited hs hcontrol hvisited
  | done _ => exact h.answered nofun
  | failed hcontrol =>
      have hshallow := h.inquires _ hcontrol
      refine h.answered ?_
      rintro _ ⟨⟩
      exact hshallow
  | noted hcontrol =>
      refine ⟨h.chain, ?_, h.resumes, nofun⟩
      rintro q ⟨⟩
      exact (h.inquires _ hcontrol).2
  | asked hcontrol =>
      refine ⟨h.chain, nofun, ?_, nofun⟩
      intro resume hresume
      obtain hresume | hresume := List.mem_cons.mp hresume
      · cases hresume
        exact fun v => (h.inquires _ hcontrol).2 v trivial
      · exact h.resumes resume hresume
  | resumed _ hwaiting =>
      refine ⟨h.chain, ?_, ?_, nofun⟩
      · rintro q ⟨⟩
        exact h.resumes _ (hwaiting ▸ List.mem_cons_self) _
      · exact fun resume hresume => h.resumes resume (hwaiting ▸ List.mem_cons_of_mem _ hresume)
  | passed _ hwaiting =>
      refine ⟨h.chain, h.inquires, ?_, h.deep⟩
      exact fun resume hresume => h.resumes resume (hwaiting ▸ List.mem_cons_of_mem _ hresume)
  | left hwaiting =>
      refine ⟨h.chain.tail, h.inquires, ?_, h.deep⟩
      exact fun resume hresume => h.resumes resume (hwaiting ▸ List.mem_cons_of_mem _ hresume)

theorem start {q : Inquiry Value} (hq : q.Shallow) (m : Memory) :
    ev.Accounts query (.start q m) where
  chain := chain_nil
  inquires := by
    rintro _ ⟨⟩
    exact hq
  resumes := nofun
  deep := nofun

end Accounts

/-- A query is prepared to an inquiry or fails, neither of them for depth. -/
theorem prepare_cases (query : Query) (m : Memory) :
    (∃ q m', (query.prepare engine).on m = (.ok q, m') ∧ q.Shallow) ∨
      ∃ failure m', (query.prepare engine).on m = (.error failure, m') ∧ failure.Shallow := by
  have hcanonical (c : CellAddress) :
      (∃ c', (liftFault (engine.source.canonical c)).on m = (.ok c', m)) ∨
        ∃ fault, (liftFault (engine.source.canonical c)).on m = (.error (.model fault), m) := by
    rw [on_liftFault]
    cases engine.source.canonical c with
    | ok c' => exact .inl ⟨c', rfl⟩
    | error fault => exact .inr ⟨fault, rfl⟩
  cases query with
  | cell c =>
      obtain ⟨c', hc⟩ | ⟨fault, hc⟩ := hcanonical c
      · exact .inl ⟨_, m, on_bind_ok hc, trivial, fun v _ => trivial⟩
      · exact .inr ⟨_, m, on_bind_error hc, nofun⟩
  | area a =>
      obtain ⟨c', hc⟩ | ⟨fault, hc⟩ := hcanonical a.topLeft
      · exact .inl ⟨_, m, on_bind_ok hc, .readArea _ _⟩
      · exact .inr ⟨_, m, on_bind_error hc, nofun⟩
  | formula entered c =>
      obtain ⟨c', hc⟩ | ⟨fault, hc⟩ := hcanonical c
      · obtain ⟨e, m', he⟩ | ⟨failure, hshallow, he⟩ :=
          @Engine.formula_on_cases engine entered m
        · exact .inl ⟨_, m', (on_bind_ok hc).trans (on_bind_ok he), e.shallow_value⟩
        · exact .inr ⟨failure, m, (on_bind_ok hc).trans (on_bind_error he), hshallow⟩
      · exact .inr ⟨_, m, on_bind_error hc, nofun⟩

theorem Passes.accounts (h : ev.Passes query s) : ev.Accounts query s := by
  obtain ⟨q, m, hprepare, hreaches⟩ := h
  induction hreaches with
  | refl =>
      obtain ⟨q', m', hq, hshallow⟩ | ⟨failure, m', hq, -⟩ :=
        @prepare_cases ev.toEngine query ev.memory
      · cases hq.symm.trans hprepare
        exact .start hshallow m
      · cases hq.symm.trans hprepare
  | tail hreaches hnext ih =>
      exact ih.step ⟨q, m, hprepare, hreaches⟩ (Engine.step_of_next? hnext)

/-- A query is refused when it is prepared, or its call comes to an end with the reply. -/
theorem reply_cases (ev : Evaluator) (query : Query) :
    (∃ failure m, failure.Shallow ∧ (query.prepare ev.toEngine).on ev.memory = (.error failure, m) ∧
        ev.reply query = (.error failure, { ev with memory := m })) ∨
      ∃ s r, ev.Passes query s ∧ s.stack = [] ∧ s.waiting = [] ∧ s.control = .answer r ∧
        ev.reply query = (r, { ev with memory := s.memory }) := by
  obtain ⟨q, m, hprepare, -⟩ | ⟨failure, m, hprepare, hshallow⟩ :=
    @prepare_cases ev.toEngine query ev.memory
  · refine .inr ⟨_, _, ⟨q, m, hprepare, Engine.reaches_answered q m⟩, rfl, rfl, rfl, ?_⟩
    rw [reply_eq, run_eq, on_bind_ok hprepare]
    rfl
  · refine .inl ⟨failure, m, hshallow, hprepare, ?_⟩
    rw [reply_eq, run_eq, on_bind_error hprepare]

/-- **Calls end and keep to their chain.** A query is refused when it is prepared, or its call comes
to a last moment, with the stack empty and the reply of the evaluator for an answer. At each moment
of the call the set in progress holds the cells of the stack, no cell is there twice, and the stack
is no higher than the settings allow. Each evaluation of a cell on the way comes to a result or a
failure, and stack and set are then as they were. If the reply is that formulas are nested too deep,
one more formula cells than the stack may hold were on a chain, each asking for the next. -/
theorem reply_callChain (ev : Evaluator) (query : Query) :
    ((∃ failure m, (query.prepare ev.toEngine).on ev.memory = (.error failure, m) ∧
          ev.reply query = (.error failure, { ev with memory := m })) ∨
        ∃ s r, ev.Passes query s ∧ ev.next? s = none ∧ s.stack = [] ∧ s.control = .answer r ∧
          ev.reply query = (r, { ev with memory := s.memory })) ∧
      (∀ s, ev.Passes query s → s.inProgress = s.stack.toFinset ∧ s.stack.Nodup ∧
        s.stack.length ≤ ev.settings.maxDepth) ∧
      (∀ s cell, ev.Passes query s → s.control = .visit cell →
        ∃ t r, ev.Inside s.waiting s t ∧ t.waiting = s.waiting ∧ t.control = .answer r ∧
          t.stack = s.stack ∧ t.inProgress = s.inProgress) ∧
      ∀ limit, (ev.reply query).1 = .error (.tooDeep limit) → limit = ev.settings.maxDepth ∧
        ∃ cells, cells.length = limit + 1 ∧ ev.Chain query cells := by
  refine ⟨?_, fun s hs => ⟨hs.tracks.set, hs.tracks.nodup, hs.tracks.height⟩, ?_, ?_⟩
  · obtain ⟨failure, m, -, hprepare, hreply⟩ | ⟨s, r, hs, hstack, hwaiting, hcontrol, hreply⟩ :=
      reply_cases ev query
    · exact .inl ⟨failure, m, hprepare, hreply⟩
    · refine .inr ⟨s, r, hs, ?_, hstack, hcontrol, hreply⟩
      rw [Engine.next?, hcontrol]
      simp only [hwaiting]
  · intro s cell hs hcontrol
    obtain ⟨result, hinside⟩ := hs.tracks.exists_answered hcontrol
    exact ⟨_, result.1, hinside, rfl, rfl, rfl, rfl⟩
  · intro limit hlimit
    obtain ⟨failure, m, hshallow, -, hreply⟩ | ⟨s, r, hs, -, -, hcontrol, hreply⟩ :=
      reply_cases ev query
    · rw [hreply] at hlimit
      exact absurd (Except.error.inj hlimit) (hshallow limit)
    · rw [hreply] at hlimit
      exact hs.accounts.deep limit (hcontrol.trans (congrArg Control.answer hlimit))

set_option maxRecDepth 4000 in
/-- Where no formula may be computed, a formula cell is asked for and one is a chain too long. -/
theorem reply_callChain_pair :
    let ev := fresh { Engine.pair true "A1" with settings := { maxDepth := 0 } }
    let query := Query.cell Workbook.pairFormula
    (∃ s, ev.Passes query s ∧ s.control = .visit Workbook.pairFormula ∧ s.stack.Nodup ∧
        ∃ t r, ev.Inside s.waiting s t ∧ t.control = .answer r ∧ t.stack = s.stack) ∧
      (ev.reply query).1 = .error (.tooDeep 0) ∧
      ∃ cells, cells.length = 1 ∧ ev.Chain query cells := by
  intro ev query
  obtain ⟨-, htracks, hvisit, hchain⟩ := reply_callChain ev query
  have hprepare : (query.prepare ev.toEngine).on ev.memory =
      (.ok (.ask Workbook.pairFormula .done), ev.memory) := by rfl
  let asked : Moment :=
    { waiting := [.inquiry .done], memory := ev.memory, control := .visit Workbook.pairFormula }
  have hasked : ev.Passes query asked := ⟨_, _, hprepare, .single rfl⟩
  have hdeep : (ev.reply query).1 = .error (.tooDeep 0) := by decide +kernel
  obtain ⟨t, r, hinside, -, hcontrol, hstack, -⟩ := hvisit asked _ hasked rfl
  exact ⟨⟨asked, hasked, rfl, (htracks asked hasked).2.1, t, r, hinside, hcontrol, hstack⟩, hdeep,
    (hchain 0 hdeep).2⟩

end Evaluator

end Spreadsheet
