-- SUMMARY: Calls that run at the same time do not wait for one another forever.
import Spreadsheet.Proofs.Claims

/-!
# Freedom from deadlock

In every session that is reached, the registered waits are those of the calls that wait or have
just been woken, each for the call that holds the claim, and they do not go round in a circle.
So whoever waits is kept waiting, in the end, by a call that can take a step.
-/

namespace Spreadsheet

open Relation Std

/-! ## Registrations -/

namespace Stage

/-- The cell that a call has asked for and does not go on without. -/
def demand? : Stage → Option Demand
  | .working _ => none
  | .facing d | .waiting d | .woken d _ => some d

/-- The cell that a call is registered as waiting for. -/
def registered? : Stage → Option Demand
  | .working _ | .facing _ => none
  | .waiting d | .woken d _ => some d

theorem demand?_of_registered? {stage : Stage} {d : Demand} (h : stage.registered? = some d) :
    stage.demand? = some d := by
  cases stage with
  | working _ => cases h
  | facing _ => cases h
  | waiting _ => exact h
  | woken _ _ => exact h

end Stage

/-- The claims that calls face were made on the cells that they ask for, and the calls registered
as waiting for the owners of claims are those that wait for them or were just woken by them. -/
structure Shared.Registered (shared : Shared) (stages : Nat → Option Stage) : Prop where
  made : ∀ i stage d, stages i = some stage → stage.demand? = some d →
    ∃ owner, shared.Made d.claim d.cell owner
  waits : ∀ i owner, shared.Waits i owner ↔ ∃ stage d, stages i = some stage ∧
    stage.registered? = some d ∧ shared.Made d.claim d.cell owner
  acyclic : shared.Acyclic

namespace Shared.Registered

variable {engine : Engine} {shared shared' : Shared} {stages stages' : Nat → Option Stage}
  {frames : Nat → List Demand} {i : Nat} {call call' : Call}

/-- A step changes the registration of no other call. -/
theorem waits_other (hstep : engine.Advances i shared call shared' call') {j : Nat} (hj : j ≠ i) :
    shared'.waits[j]? = shared.waits[j]? := by
  have hne : ¬ compare i j = .eq := fun h => hj (LawfulEqCmp.compare_eq_iff_eq.mp h).symm
  cases hstep with
  | noted _ => cases call.frames.head? <;> rfl
  | finished _ _ => rw [waits_release]
  | registered _ _ _ => simp [TreeMap.getElem?_insert, Ne.symm hj]
  | left _ => simp [TreeMap.getElem?_erase, Ne.symm hj]
  | answered _ _ | faced _ _ | claimed _ _ _ | refused _ _ _ | woke _ _ => rfl

/-- A claim that a call comes to face was made on the cell it asks for. -/
theorem made_step (h : shared.Registered stages) (howned : shared.Owned frames)
    (hstep : engine.Advances i shared call shared' call') (hcall : stages i = some call.stage)
    {d : Demand} (hd : call'.stage.demand? = some d) :
    ∃ owner, shared.Made d.claim d.cell owner := by
  cases hstep with
  | faced _ hsees =>
      cases hd
      cases hsees with
      | claimed _ hclaimed =>
          obtain ⟨owner, hpending⟩ := (howned.claimed _ _).mp hclaimed
          exact ⟨owner, hpending.made⟩
  | registered hstage _ _ => exact h.made i _ d hcall (by rw [hstage]; exact hd)
  | woke hstage _ => exact h.made i _ d hcall (by rw [hstage]; exact hd)
  | noted _ | answered _ _ | claimed _ _ _ | finished _ _ | refused _ _ _ | left _ => cases hd

/-- A step registers the call for the owner of the claim that it faces, or keeps or gives up its
registration. -/
theorem waits_self (h : shared.Registered stages)
    (hstep : engine.Advances i shared call shared' call') (hcall : stages i = some call.stage)
    (owner : Nat) : shared'.Waits i owner ↔
      ∃ d, call'.stage.registered? = some d ∧ shared'.Made d.claim d.cell owner := by
  have hold : shared.Waits i owner ↔
      ∃ d, call.stage.registered? = some d ∧ shared.Made d.claim d.cell owner := by
    rw [h.waits i owner, hcall]
    simp
  -- where the registration is not touched, the call was not registered and is not
  have hnone (hstage : call.stage.registered? = none) (hstage' : call'.stage.registered? = none)
      (hwaits : shared'.waits = shared.waits) : shared'.Waits i owner ↔
        ∃ d, call'.stage.registered? = some d ∧ shared'.Made d.claim d.cell owner := by
    unfold Waits at hold ⊢
    rw [hwaits, hold, hstage, hstage']
    simp
  cases hstep with
  | noted hstage =>
      refine hnone (by rw [hstage]; rfl) rfl ?_
      cases call.frames.head? <;> rfl
  | answered hstage _ => exact hnone (by rw [hstage]; rfl) rfl rfl
  | faced hstage _ => exact hnone (by rw [hstage]; rfl) rfl rfl
  | claimed hstage _ _ => exact hnone (by rw [hstage]; rfl) rfl rfl
  | finished _ hstage => exact hnone (by rw [hstage]; rfl) rfl (waits_release _ _ _ _)
  | refused hstage _ _ => exact hnone (by rw [hstage]; rfl) rfl rfl
  | @registered d claim hstage hclaim _ =>
      obtain ⟨o, ho⟩ := h.made i _ d hcall (by rw [hstage]; rfl)
      have hmade : shared.Made d.claim claim.cell claim.owner := ⟨claim.state, hclaim⟩
      obtain ⟨hcell, -⟩ := hmade.unique ho
      have howner : shared.Made d.claim d.cell owner ↔ claim.owner = owner :=
        ⟨fun hmade' => (hmade.unique hmade').2, fun heq => heq ▸ hcell ▸ hmade⟩
      change (shared.waits.insert i claim.owner)[i]? = some owner ↔
        ∃ d', some d = some d' ∧ shared.Made d'.claim d'.cell owner
      simp [howner]
  | woke hstage _ =>
      refine hold.trans ?_
      rw [hstage]
      rfl
  | left _ =>
      change (shared.waits.erase i)[i]? = some owner ↔ ∃ d, none = some d ∧ _
      simp

theorem acyclic_step (h : shared.Registered stages)
    (hstep : engine.Advances i shared call shared' call') : shared'.Acyclic := by
  cases hstep with
  | noted _ => cases call.frames.head? <;> exact h.acyclic
  | finished _ _ =>
      refine h.acyclic.of_fewer_waits fun a b hab => ?_
      unfold Waits at hab ⊢
      rwa [waits_release] at hab
  | @registered d claim _ _ hcircular =>
      refine h.acyclic.of_new_wait (fun a b hab => ?_)
        fun hleads => hcircular (h.acyclic.circular_iff.mpr hleads)
      have hab : (shared.waits.insert i claim.owner)[a]? = some b := hab
      rw [TreeMap.getElem?_insert] at hab
      split at hab
      · rename_i ha
        exact .inr ⟨(LawfulEqCmp.compare_eq_iff_eq.mp ha).symm, (Option.some.inj hab).symm⟩
      · exact .inl hab
  | left _ =>
      refine h.acyclic.of_fewer_waits fun a b hab => ?_
      have hab : (shared.waits.erase i)[a]? = some b := hab
      rw [TreeMap.getElem?_erase] at hab
      split at hab
      · cases hab
      · exact hab
  | answered _ _ | faced _ _ | claimed _ _ _ | refused _ _ _ | woke _ _ => exact h.acyclic

/-- Registrations stay in order whatever a call does. -/
theorem step (h : shared.Registered stages) (howned : shared.Owned frames)
    (hstep : engine.Advances i shared call shared' call') (hcall : stages i = some call.stage)
    (hcall' : stages' i = some call'.stage) (hother : ∀ j, j ≠ i → stages' j = stages j) :
    shared'.Registered stages' where
  made := by
    intro j stage d hstage hd
    by_cases hj : j = i
    · rw [hj, hcall'] at hstage
      cases hstage
      obtain ⟨owner, hmade⟩ := h.made_step howned hstep hcall hd
      exact ⟨owner, hmade.step hstep⟩
    · obtain ⟨owner, hmade⟩ := h.made j stage d (hother j hj ▸ hstage) hd
      exact ⟨owner, hmade.step hstep⟩
  waits := by
    intro j owner
    by_cases hj : j = i
    · rw [hj, hcall', h.waits_self hstep hcall owner]
      simp
    · unfold Waits
      rw [waits_other hstep hj, hother j hj]
      refine (h.waits j owner).trans ⟨?_, ?_⟩
      · rintro ⟨stage, d, hstage, hd, hmade⟩
        exact ⟨stage, d, hstage, hd, hmade.step hstep⟩
      · rintro ⟨stage, d, hstage, hd, hmade⟩
        obtain ⟨owner', hmade'⟩ := h.made j stage d hstage (Stage.demand?_of_registered? hd)
        obtain ⟨-, rfl⟩ := hmade.unique (hmade'.step hstep)
        exact ⟨stage, d, hstage, hd, hmade'⟩
  acyclic := h.acyclic_step hstep

/-- A call that joins is not registered. -/
theorem join (h : shared.Registered stages) {q : Inquiry Value} (hnew : stages i = none)
    (hself : stages' i = some (.working q)) (hother : ∀ j, j ≠ i → stages' j = stages j) :
    shared.Registered stages' where
  made := by
    intro j stage d hstage hd
    by_cases hj : j = i
    · rw [hj, hself] at hstage
      cases hstage
      cases hd
    · exact h.made j stage d (hother j hj ▸ hstage) hd
  waits := by
    intro j owner
    rw [h.waits j owner]
    by_cases hj : j = i
    · rw [hj, hself, hnew]
      simp [Stage.registered?]
    · rw [hother j hj]
  acyclic := h.acyclic

end Shared.Registered

/-! ## Blocked calls -/

namespace Session

variable {engine : Engine} {memory : Memory} {allowed : Session → Nat → Prop}
  {queries : List Query} {s : Session} {i j : Nat}

def stage? (s : Session) (i : Nat) : Option Stage := (s.calls[i]?).map Call.stage

theorem Reached.registered (h : s.Reached engine memory allowed queries) :
    s.shared.Registered s.stage? := by
  induction h with
  | start =>
      refine ⟨by simp [stage?], by simp [stage?, Shared.Waits], fun call hcall => ?_⟩
      obtain ⟨_, hcall, -⟩ := TransGen.head'_iff.mp hcall
      simp [Shared.Waits] at hcall
  | @joined _ s query _ ih =>
      obtain ⟨q, memory, hjoin⟩ := s.join_eq (query.prepare engine)
      have hnew : (s.join (query.prepare engine)).stage? s.calls.size = some (.working q) := by
        simp [stage?, hjoin]
      have hjoined := ih.join (by simp [stage?]) hnew fun j hj => by
        simp [stage?, hjoin, Array.getElem?_push, hj]
      rw [hjoin] at hjoined ⊢
      exact ⟨hjoined.made, hjoined.waits, hjoined.acyclic⟩
  | moved hreached _ hstep ih =>
      obtain ⟨call, call', hcall, hadvances, hcall', hother, -⟩ := step?_eq_some hstep
      refine ih.step hreached.owned hadvances (by simp [stage?, hcall]) (by simp [stage?, hcall'])
        fun j hj => ?_
      simp [stage?, hother j hj]

/-- A call waits for a claim that is pending, and another call holds the claim. -/
def BlockedBy (s : Session) (i owner : Nat) : Prop :=
  ∃ d, s.stage? i = some (.waiting d) ∧ s.shared.Pending d.claim d.cell owner

/-- A call waits for a claim that is pending. -/
def Blocked (s : Session) (i : Nat) : Prop := ∃ owner, s.BlockedBy i owner

theorem BlockedBy.waits (hreached : s.Reached engine memory allowed queries)
    (h : s.BlockedBy i j) : s.shared.Waits i j := by
  obtain ⟨d, hstage, hpending⟩ := h
  exact (hreached.registered.waits i j).mpr ⟨_, d, hstage, rfl, hpending.made⟩

/-- A call takes a step unless it is over or blocked. -/
theorem Reached.over_or_blocked (hreached : s.Reached engine memory allowed queries)
    {call : Call} (hcall : s.calls[i]? = some call) :
    (s.step? engine i).isSome ∨ (call.result?).isSome ∨ s.Blocked i := by
  have hstage : s.stage? i = some call.stage := by simp [stage?, hcall]
  have hmade := hreached.registered.made i call.stage
  have hstep (h : (engine.advance i s.shared call).isSome) : (s.step? engine i).isSome := by
    obtain ⟨next, hnext⟩ := Option.isSome_iff_exists.mp h
    simp [step?, hcall, hnext]
  obtain ⟨frames, stage⟩ := call
  cases stage with
  | working q =>
      cases q with
      | note r q => exact .inl (hstep rfl)
      | ask cell resume => exact .inl (hstep rfl)
      | done v =>
          cases frames with
          | nil => exact .inr (.inl rfl)
          | cons d frames => exact .inl (hstep rfl)
      | fail failure =>
          cases frames with
          | nil => exact .inr (.inl rfl)
          | cons d frames => exact .inl (hstep rfl)
  | facing d =>
      -- the claim that is faced or waited for was made, so it can be looked up
      obtain ⟨owner, state, hclaim⟩ := hmade d hstage rfl
      refine .inl (hstep ?_)
      simp only [Engine.advance, hclaim]
      split <;> rfl
  | waiting d =>
      obtain ⟨owner, state, hclaim⟩ := hmade d hstage rfl
      cases state with
      | pending => exact .inr (.inr ⟨owner, d, hstage, hclaim⟩)
      | resolved value? =>
          refine .inl (hstep ?_)
          simp [Engine.advance, hclaim]
  | woken d value? => exact .inl (hstep rfl)

/-- A call that holds a pending claim is not over. -/
theorem BlockedBy.exists_call (hreached : s.Reached engine memory allowed queries)
    (h : s.BlockedBy i j) : ∃ call, s.calls[j]? = some call ∧ call.result? = none := by
  obtain ⟨d, -, hpending⟩ := h
  obtain ⟨e, he, -⟩ := hreached.owned.frame _ _ _ hpending
  cases hcall : s.calls[j]? with
  | none => simp [frames, hcall] at he
  | some call =>
      refine ⟨call, rfl, Option.eq_none_iff_forall_not_mem.mpr fun r hr => ?_⟩
      simp [frames, hcall, (Call.result?_eq_some hr).1] at he

/-- Going from a call to the one that it waits for comes to an end. -/
theorem Reached.wellFounded_blockedBy (hreached : s.Reached engine memory allowed queries) :
    WellFounded fun j i : Fin s.calls.size => s.BlockedBy i j := by
  let follows (j i : Fin s.calls.size) : Prop := TransGen s.shared.Waits i j
  have : IsTrans (Fin s.calls.size) follows := ⟨fun _ _ _ hab hbc => hbc.trans hab⟩
  have : Std.Irrefl follows := ⟨fun i hi => hreached.registered.acyclic i hi⟩
  exact Subrelation.wf (fun h => .single (h.waits hreached))
    (Finite.wellFounded_of_trans_of_irrefl follows)

/-- Whoever is blocked is blocked, in the end, by a call that takes a step. -/
theorem Reached.exists_running (hreached : s.Reached engine memory allowed queries)
    (h : s.Blocked i) :
    ∃ j, TransGen s.BlockedBy i j ∧ ¬ s.Blocked j ∧ (s.step? engine j).isSome := by
  have hlt : i < s.calls.size := by
    obtain ⟨_, d, hstage, -⟩ := h
    cases hcall : s.calls[i]? with
    | none => simp [stage?, hcall] at hstage
    | some call => exact (Array.getElem?_eq_some_iff.mp hcall).1
  -- the induction follows the waits, which end
  induction hi : (⟨i, hlt⟩ : Fin s.calls.size)
    using hreached.wellFounded_blockedBy.induction generalizing i with
  | _ a ih =>
      subst hi
      obtain ⟨j, hblocked⟩ := h
      obtain ⟨call, hcall, hover⟩ := hblocked.exists_call hreached
      by_cases hj : s.Blocked j
      · have hltj : j < s.calls.size := (Array.getElem?_eq_some_iff.mp hcall).1
        obtain ⟨k, hk, hend⟩ := ih ⟨j, hltj⟩ hblocked hj hltj rfl
        exact ⟨k, .head hblocked hk, hend⟩
      · refine ⟨j, .single hblocked, hj, ?_⟩
        obtain hstep | hdone | hj' := hreached.over_or_blocked hcall
        · exact hstep
        · simp [hover] at hdone
        · exact absurd hj' hj

/-- In every session, whatever the workbook and however the calls take turns: the waits that are
registered do not go round in a circle, no cell has two pending claims, and going from a blocked
call to the one that holds the claim, and so on, ends at a call that takes a step. So there is
always a call that goes on as long as not all calls are over. -/
theorem no_deadlock (hreached : s.Reached engine memory allowed queries) :
    (∀ i, ¬ TransGen s.shared.Waits i i) ∧
      (∀ k k' cell i i', s.shared.Pending k cell i → s.shared.Pending k' cell i' → k = k') ∧
      (∀ i, s.Blocked i →
        ∃ j, TransGen s.BlockedBy i j ∧ ¬ s.Blocked j ∧ (s.step? engine j).isSome) ∧
      ((∃ i < s.calls.size, s.result? i = none) → ∃ j, (s.step? engine j).isSome) := by
  refine ⟨hreached.registered.acyclic, fun k k' cell i i' => hreached.owned.unique,
    fun i => hreached.exists_running, ?_⟩
  rintro ⟨i, hlt, hresult⟩
  have hcall : s.calls[i]? = some s.calls[i] := Array.getElem?_eq_getElem hlt
  obtain hstep | hover | hblocked := hreached.over_or_blocked hcall
  · exact ⟨i, hstep⟩
  · simp [result?, hcall] at hresult
    simp [hresult] at hover
  · obtain ⟨j, -, -, hstep⟩ := hreached.exists_running hblocked
    exact ⟨j, hstep⟩

/-- The first call computes the formula `=A1`, and the second one, which is asked for the same
cell, waits for it. -/
def waitingPair : Session :=
  (ofQueries (.pair true "A1") {} [.cell Workbook.pairFormula, .cell Workbook.pairFormula]).run
    (.pair true "A1") [0, 1, 1]

set_option maxRecDepth 4000 in
theorem no_deadlock_waitingPair :
    waitingPair.Reached (.pair true "A1") {} (fun _ _ => True)
        [.cell Workbook.pairFormula, .cell Workbook.pairFormula] ∧
      waitingPair.Blocked 1 ∧ ∃ j, TransGen waitingPair.BlockedBy 1 j ∧ ¬ waitingPair.Blocked j ∧
        (waitingPair.step? (.pair true "A1") j).isSome := by
  have hreached := (reached_ofQueries (.pair true "A1") {} (fun _ _ => True)
    [.cell Workbook.pairFormula, .cell Workbook.pairFormula]).run [0, 1, 1]
  have hstage : waitingPair.stage? 1 = some (.waiting ⟨Workbook.pairFormula, 0, .done⟩) := by
    with_unfolding_all rfl
  have hpending : waitingPair.shared.claims[0]? = some ⟨Workbook.pairFormula, 0, .pending⟩ := by
    with_unfolding_all rfl
  have hblocked : waitingPair.Blocked 1 := ⟨0, _, hstage, hpending⟩
  exact ⟨hreached, hblocked, (no_deadlock hreached).2.2.1 1 hblocked⟩

end Session

end Spreadsheet
