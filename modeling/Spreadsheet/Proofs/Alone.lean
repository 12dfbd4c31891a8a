-- SUMMARY: A call that has a session to itself gives what the evaluator replies.
import Spreadsheet.Proofs.Claims
import Spreadsheet.Proofs.Machine

/-!
# Calls on their own

A call that shares its session with no other one never faces a claim: the cells that it has
claimed are those it has under computation. Its steps lead to the result that the evaluator gives
and leave the memory that the evaluator keeps.
-/

namespace Spreadsheet

open Evaluation Relation Std

namespace Engine

variable {engine : Engine} {me depth : Nat} {shared shared' : Shared} {call call' : Call}
  {chain : List CellAddress} {cell : CellAddress} {m : Memory} {frames : List Demand}

/-- The first moment of a call leads to the second one while no other call takes a step. -/
def Leads (engine : Engine) (me : Nat) : Shared × Call → Shared × Call → Prop :=
  ReflTransGen fun x y => engine.advance me x.1 x.2 = some y

/-- All pending claims are those of one call. -/
def Alone (shared : Shared) (me : Nat) (frames : List Demand) : Prop :=
  shared.Owned fun i => if i = me then frames else []

theorem Alone.step (h : Alone shared me call.frames)
    (hstep : engine.advance me shared call = some (shared', call')) :
    Alone shared' me call'.frames := by
  refine Shared.Owned.step h (advances_of_advance hstep) (by simp) (by simp) fun j hj => ?_
  simp [hj]

/-- A cell that is not under computation is not claimed. -/
theorem Alone.claimed_eq_none (h : Alone shared me frames)
    (hcell : cell ∉ frames.map Demand.cell) : shared.claimed[cell]? = none := by
  cases hclaimed : shared.claimed[cell]? with
  | none => rfl
  | some k =>
      obtain ⟨i, hpending⟩ := (h.claimed cell k).mp hclaimed
      obtain ⟨d, hd, rfl⟩ := h.frame k cell i hpending
      split at hd
      · rename_i hi
        have hpending' := h.pending i d (by simpa [hi] using hd)
        exact absurd ((hpending'.unique hpending).1 ▸ List.mem_map_of_mem hd) hcell
      · cases hd

/-! ## Steps -/

/-- Where no other call has a claim, a call finds what the evaluator finds. -/
theorem find_sight (hfree : cell ∉ chain → shared.claimed[cell]? = none) :
    (∃ r, engine.sight shared chain cell = .result r ∧
      (engine.find chain cell).on shared.memory = (r.map .value, shared.memory)) ∨
    ∃ text, engine.sight shared chain cell = .free text ∧
      (engine.find chain cell).on shared.memory =
        (.formula <$> engine.formula text).on shared.memory := by
  unfold sight find
  by_cases hcell : cell ∈ chain
  · exact .inl ⟨_, by rw [if_pos hcell], by rw [if_pos hcell]; rfl⟩
  · simp only [hcell, if_false, hfree hcell]
    cases hread : engine.source.workbook.read cell with
    | error fault => exact .inl ⟨_, rfl, on_bind_error rfl⟩
    | ok content =>
        have hlift : (liftFault (.ok content : Except Fault CellContent)).on shared.memory =
            (.ok content, shared.memory) := rfl
        simp only [on_bind_ok hlift]
        cases htext : content.formula with
        | none => exact .inl ⟨_, rfl, rfl⟩
        | some text =>
            simp only [on_bind_ok (on_get shared.memory)]
            cases hv : shared.memory.values[cell]? with
            | some v => exact .inl ⟨_, rfl, rfl⟩
            | none => exact .inr ⟨text, rfl, rfl⟩

/-- A computation that is over gives its result to what waits for it. -/
theorem leads_finish (engine : Engine) (me : Nat) (shared : Shared) (d : Demand)
    (frames : List Demand) (r : Except Failure Value) :
    engine.Leads me (shared, { frames := d :: frames, stage := .working (.resumed .done r) })
      (shared.release engine.settings.remember d r.toOption,
        { frames, stage := .working (.resumed d.resume r) }) := by
  cases r <;> exact .single rfl

theorem memory_release_some (shared : Shared) (remember : Bool) (d : Demand) (v : Value) :
    (shared.release remember d (some v)).memory = shared.memory.keep remember d.cell v := by
  cases remember <;> rfl

/-- When a cell is asked for, a call comes to what the evaluator gives for it, and leaves the same
memory. -/
def Follows (engine : Engine) (me depth : Nat) (frames : List Demand) : Prop :=
  ∀ shared cell resume, Alone shared me frames → ∃ shared' r,
    engine.Leads me (shared, { frames, stage := .working (.ask cell resume) })
      (shared', { frames, stage := .working (.resumed resume r) }) ∧
    (engine.cellValue depth (frames.map Demand.cell) cell).on shared.memory = (r, shared'.memory)

theorem Alone.leads {x y : Shared × Call} (h : Alone x.1 me x.2.frames)
    (hleads : engine.Leads me x y) : Alone y.1 me y.2.frames := by
  induction hleads with
  | refl => exact h
  | tail _ hstep ih => exact ih.step hstep

theorem leads_inquiry (hfollows : engine.Follows me depth frames) (q : Inquiry Value)
    (h : Alone shared me frames) : ∃ shared' r,
      engine.Leads me (shared, { frames, stage := .working q })
        (shared', { frames, stage := .working (.resumed .done r) }) ∧
      (q.run (recordFor (frames.head?.map Demand.cell))
        (engine.cellValue depth (frames.map Demand.cell))).on shared.memory =
          (r, shared'.memory) := by
  induction q generalizing shared with
  | done v => exact ⟨shared, .ok v, .refl, rfl⟩
  | fail failure => exact ⟨shared, .error failure, .refl, rfl⟩
  | note reading q ih =>
      have hstep : engine.Leads me (shared, { frames, stage := .working (.note reading q) })
          (shared.note frames.head? reading, { frames, stage := .working q }) := .single rfl
      obtain ⟨shared', r, hleads, hrun⟩ := ih (h.leads hstep)
      refine ⟨shared', r, hstep.trans hleads, ?_⟩
      rw [Inquiry.run, on_bind_ok (recordFor_on _ _ _), ← hrun]
      cases frames <;> rfl
  | ask cell resume ih =>
      obtain ⟨shared₁, r₁, hleads₁, hvalue⟩ := hfollows shared cell resume h
      cases r₁ with
      | error failure =>
          exact ⟨shared₁, .error failure, hleads₁, by rw [Inquiry.run, on_bind_error hvalue]⟩
      | ok v =>
          obtain ⟨shared', r, hleads, hrun⟩ := ih v (h.leads hleads₁)
          refine ⟨shared', r, hleads₁.trans hleads, ?_⟩
          rw [Inquiry.run, on_bind_ok hvalue, hrun]

theorem cellValue_zero_on_formula {e : Formula.Expr} {m' : Memory}
    (h : (engine.find chain cell).on m = (.ok (.formula e), m')) :
    (engine.cellValue 0 chain cell).on m =
      (.error (.tooDeep engine.settings.maxDepth), m') := by
  rw [cellValue, on_bind_ok h]
  rfl

/-- A call that asks for a cell that is free claims it and begins to compute it. -/
theorem leads_free (me : Nat) {text : String} (resume : Value → Inquiry Value)
    {q : Inquiry Value}
    (hsight : engine.sight shared (frames.map Demand.cell) cell = .free text)
    (hstart : engine.start (frames.map Demand.cell) cell text shared.memory = (q, m)) :
    engine.Leads me (shared, { frames, stage := .working (.ask cell resume) })
      ({ shared.claim me cell with memory := m },
        { frames := ⟨cell, shared.claims.size, resume⟩ :: frames, stage := .working q }) := by
  refine .single ?_
  simp [advance, demand, Call.chain, hsight, hstart]

/-- If the computation of a cell fails at once, the call gives it up again. -/
theorem leads_fail {text : String} {resume : Value → Inquiry Value} {failure : Failure}
    (hsight : engine.sight shared (frames.map Demand.cell) cell = .free text)
    (hstart : engine.start (frames.map Demand.cell) cell text shared.memory =
      (.fail failure, m)) :
    ∃ shared' : Shared, shared'.memory = m ∧
      engine.Leads me (shared, { frames, stage := .working (.ask cell resume) })
        (shared', { frames, stage := .working (.resumed resume (.error failure)) }) :=
  ⟨_, rfl, (leads_free me resume hsight hstart).trans (leads_finish engine me _ _ frames (.error failure))⟩

/-- Whatever cell it asks for, a call comes to what the evaluator gives for it. -/
theorem follows (engine : Engine) (me : Nat)
    (hdepth : depth + frames.length = engine.settings.maxDepth) :
    engine.Follows me depth frames := by
  -- by induction on the nesting that is left: a formula is computed in a frame above, with less
  induction depth using Nat.strongRecOn generalizing frames with
  | ind depth ih =>
      intro shared cell resume h
      obtain ⟨r, hsight, hfind⟩ | ⟨text, hsight, hfind⟩ := find_sight h.claimed_eq_none
      · refine ⟨shared, r, .single ?_, cellValue_on_value hfind⟩
        simp [advance, demand, Call.chain, hsight, Call.work]
      · -- no value and no other claim is in the way, so the call makes the claim itself
        obtain ⟨r, m, hformula⟩ : ∃ r m, (engine.formula text).run.run shared.memory = (r, m) :=
          ⟨_, _, rfl⟩
        have hfind : (engine.find (frames.map Demand.cell) cell).on shared.memory =
            (r.map .formula, m) := by
          rw [hfind, on_map]
          exact congrArg (fun x => (x.1.map Finding.formula, x.2)) hformula
        cases r with
        | error failure =>
            have hstart : engine.start (frames.map Demand.cell) cell text shared.memory =
                (.fail failure, m) := by simp only [start, hformula]
            obtain ⟨shared', rfl, hleads⟩ := leads_fail hsight hstart
            exact ⟨shared', .error failure, hleads, cellValue_on_value (r := .error failure) hfind⟩
        | ok e =>
            cases depth with
            | zero =>
                have hstart : engine.start (frames.map Demand.cell) cell text shared.memory =
                    (.fail (.tooDeep engine.settings.maxDepth), m) := by
                  simp only [start, hformula, List.length_map]
                  rw [if_pos (by omega)]
                obtain ⟨shared', rfl, hleads⟩ := leads_fail hsight hstart
                exact ⟨shared', _, hleads, cellValue_zero_on_formula hfind⟩
            | succ depth =>
                have hstart : engine.start (frames.map Demand.cell) cell text shared.memory =
                    (engine.inquiry (frames.map Demand.cell) cell e, m.forget cell) := by
                  simp only [start, hformula, List.length_map]
                  rw [if_neg (by omega)]
                have hclaims := leads_free me resume hsight hstart
                obtain ⟨shared', r, hleads, hrun⟩ := leads_inquiry
                  (ih depth (Nat.lt_succ_self depth) (by simp only [List.length_cons]; omega))
                  _ (h.leads hclaims)
                refine ⟨_, r, (hclaims.trans hleads).trans (leads_finish engine me _ _ frames r),
                  (cellValue_on_formula hfind).trans ?_⟩
                have hrun : ((engine.inquiry (frames.map Demand.cell) cell e).run
                    (recordFor (some cell))
                    (engine.cellValue depth (cell :: frames.map Demand.cell))).on (m.forget cell) =
                      (r, shared'.memory) := hrun
                rw [hrun]
                cases r with
                | error failure => rfl
                | ok v =>
                    simp only [Except.toOption]
                    rw [memory_release_some]

end Engine

/-! ## Queries -/

namespace Session

variable {engine : Engine} {s : Session} {i : Nat} {x y : Shared × Call}

/-- Where only one call takes steps, the session goes where the call leads. -/
theorem run_of_leads (h : engine.Leads i x y) (hshared : s.shared = x.1)
    (hcall : s.calls[i]? = some x.2) :
    ∃ count, (s.run engine (List.replicate count i)).shared = y.1 ∧
      (s.run engine (List.replicate count i)).calls[i]? = some y.2 := by
  induction h using ReflTransGen.head_induction_on generalizing s with
  | refl => exact ⟨0, hshared, hcall⟩
  | @head x z hstep _ ih =>
      have hlt : i < s.calls.size := (Array.getElem?_eq_some_iff.mp hcall).1
      have hnext : s.step? engine i =
          some { shared := z.1, calls := s.calls.setIfInBounds i z.2 } := by
        simp [step?, hcall, hshared, hstep]
      obtain ⟨count, hcount⟩ :=
        @ih { shared := z.1, calls := s.calls.setIfInBounds i z.2 } rfl (by simp [hlt])
      refine ⟨count + 1, ?_⟩
      simpa [List.replicate_succ, run, hnext] using hcount

/-- A call that takes all its steps by itself is answered as the evaluator replies, and leaves the
memory that the evaluator keeps. -/
theorem reply_alone (ev : Evaluator) (query : Query) :
    ∃ count s, s = (ofQueries ev.toEngine ev.memory [query]).run ev.toEngine
        (List.replicate count 0) ∧
      s.result? 0 = some (ev.reply query).1 ∧ s.shared.memory = (ev.reply query).2.memory := by
  obtain ⟨start, m, hprepare⟩ : ∃ start m, (query.prepare ev.toEngine).on ev.memory = (start, m) :=
    ⟨_, _, rfl⟩
  have hjoin : ofQueries ev.toEngine ev.memory [query] =
      { shared := { memory := m }
        calls := #[{ stage := .working (.begun start) }] } := by
    have hrun : (query.prepare ev.toEngine).run.run ev.memory = (start, m) := hprepare
    simp only [ofQueries, List.foldl_cons, List.foldl_nil, join, hrun]
    rfl
  rw [Evaluator.reply_eq, Evaluator.run_eq]
  cases start with
  | error failure =>
      rw [on_bind_error hprepare, hjoin]
      exact ⟨0, _, rfl, rfl, rfl⟩
  | ok q =>
      have halone : Engine.Alone { memory := m } 0 [] :=
        ⟨by simp, by simp, by simp [Shared.Pending], by simp [Shared.Pending]⟩
      have hfollows : ev.Follows 0 ev.settings.maxDepth [] := Engine.follows ev.toEngine 0 rfl
      obtain ⟨shared', r, hleads, hrun⟩ := Engine.leads_inquiry hfollows q halone
      have hanswer : (ev.answer q).on m = (r, shared'.memory) := hrun
      rw [on_bind_ok hprepare, hanswer, hjoin]
      obtain ⟨count, hshared, hcall⟩ :=
        run_of_leads (s := { shared := { memory := m }, calls := #[⟨[], .working q⟩] }) hleads rfl
          rfl
      refine ⟨count, _, rfl, (congrArg (·.bind Call.result?) hcall).trans ?_,
        congrArg Shared.memory hshared⟩
      cases r <;> rfl

end Session

end Spreadsheet
