-- SUMMARY: What a step of a session can do, and that calls hold the claims they compute under.
import Spreadsheet.Proofs.History
import Spreadsheet.Proofs.Waits

/-!
# Claims

A step of a call is restated as a relation with one rule for each thing that a call can do. In
every session that is reached, the pending claims are those on the cells that calls have under
computation, and no cell has two of them.
-/

namespace Spreadsheet

open Std

/-! ## What a step can do -/

namespace Engine

/-- What is found of a cell, and why. -/
inductive Sees (engine : Engine) (shared : Shared) (chain : List CellAddress)
    (cell : CellAddress) : Sighting → Prop where
  | circle : cell ∈ chain → Sees engine shared chain cell (.result (.ok (.error .circular)))
  | settled {r : Except Failure Value} :
      cell ∉ chain → engine.holding cell = .result r → Sees engine shared chain cell (.result r)
  | remembered {v : Value} :
      cell ∉ chain → shared.memory.values[cell]? = some v →
      Sees engine shared chain cell (.result (.ok v))
  | claimed {claim : Nat} :
      cell ∉ chain → shared.claimed[cell]? = some claim →
      Sees engine shared chain cell (.claimed claim)
  | free {content : CellContent} {text : String} :
      cell ∉ chain → engine.source.workbook.read cell = .ok content →
      content.formula = some text → shared.claimed[cell]? = none →
      Sees engine shared chain cell (.free text)

theorem sees_sight (engine : Engine) (shared : Shared) (chain : List CellAddress)
    (cell : CellAddress) : engine.Sees shared chain cell (engine.sight shared chain cell) := by
  unfold sight
  split
  · rename_i hmem
    exact .circle hmem
  · rename_i hmem
    cases hread : engine.source.workbook.read cell with
    | error fault => exact .settled hmem (by simp [holding, hread])
    | ok content =>
        cases htext : content.formula with
        | none =>
            simp only [htext]
            exact .settled hmem (by simp [holding, hread, htext])
        | some text =>
            simp only [htext]
            cases hv : shared.memory.values[cell]? with
            | some v => exact .remembered hmem hv
            | none =>
                cases hclaimed : shared.claimed[cell]? with
                | some claim => exact .claimed hmem hclaimed
                | none => exact .free hmem hread htext hclaimed

/-- What a call does next and leaves, `me` being its number. -/
inductive Advances (engine : Engine) (me : Nat) (shared : Shared) (call : Call) :
    Shared → Call → Prop where
  | noted {r : Reading} {q : Inquiry Value} :
      call.stage = .working (.note r q) →
      Advances engine me shared call (shared.note call.frames.head? r) (call.work q)
  | answered {cell : CellAddress} {resume : Value → Inquiry Value} {r : Except Failure Value} :
      call.stage = .working (.ask cell resume) →
      engine.Sees shared call.chain cell (.result r) →
      Advances engine me shared call shared (call.work (.resumed resume r))
  | faced {cell : CellAddress} {resume : Value → Inquiry Value} {claim : Nat} :
      call.stage = .working (.ask cell resume) →
      engine.Sees shared call.chain cell (.claimed claim) →
      Advances engine me shared call shared { call with stage := .facing ⟨cell, claim, resume⟩ }
  | claimed {cell : CellAddress} {resume : Value → Inquiry Value} {text : String}
      {q : Inquiry Value} {memory : Memory} :
      call.stage = .working (.ask cell resume) →
      engine.Sees shared call.chain cell (.free text) →
      engine.start call.chain cell text shared.memory = (q, memory) →
      Advances engine me shared call { shared.claim me cell with memory }
        { frames := ⟨cell, shared.claims.size, resume⟩ :: call.frames, stage := .working q }
  | finished {d : Demand} {frames : List Demand} {r : Except Failure Value} :
      call.frames = d :: frames → call.stage = .working (.resumed .done r) →
      Advances engine me shared call (shared.release engine.settings.remember d r.toOption)
        { frames, stage := .working (.resumed d.resume r) }
  | refused {d : Demand} {claim : Claim} :
      call.stage = .facing d → shared.claims[d.claim]? = some claim →
      shared.circular me claim.owner →
      Advances engine me shared call shared (call.work (d.resume (.error .circular)))
  | registered {d : Demand} {claim : Claim} :
      call.stage = .facing d → shared.claims[d.claim]? = some claim →
      ¬ shared.circular me claim.owner →
      Advances engine me shared call { shared with waits := shared.waits.insert me claim.owner }
        { call with stage := .waiting d }
  | woke {d : Demand} {cell : CellAddress} {owner : Nat} {value? : Option Value} :
      call.stage = .waiting d → shared.claims[d.claim]? = some ⟨cell, owner, .resolved value?⟩ →
      Advances engine me shared call shared { call with stage := .woken d value? }
  | left {d : Demand} {value? : Option Value} :
      call.stage = .woken d value? →
      Advances engine me shared call { shared with waits := shared.waits.erase me }
        (call.work (d.woken value?))

variable {engine : Engine} {me : Nat} {shared shared' : Shared} {call call' : Call}

theorem advances_demand {cell : CellAddress} {resume : Value → Inquiry Value}
    (hstage : call.stage = .working (.ask cell resume))
    (h : engine.demand me shared call cell resume = (shared', call')) :
    engine.Advances me shared call shared' call' := by
  have hsees := engine.sees_sight shared call.chain cell
  unfold demand at h
  cases hsight : engine.sight shared call.chain cell with
  | result r =>
      rw [hsight] at h hsees
      cases h
      exact .answered hstage hsees
  | claimed claim =>
      rw [hsight] at h hsees
      cases h
      exact .faced hstage hsees
  | free text =>
      rw [hsight] at h hsees
      cases h
      exact .claimed hstage hsees rfl

theorem advances_finish {r : Except Failure Value}
    (hstage : call.stage = .working (.resumed .done r))
    (h : engine.finish shared r call.frames = some (shared', call')) :
    engine.Advances me shared call shared' call' := by
  cases hframes : call.frames with
  | nil => simp [hframes, finish] at h
  | cons d frames =>
      simp only [hframes, finish, Option.some.injEq, Prod.mk.injEq] at h
      obtain ⟨rfl, rfl⟩ := h
      exact .finished hframes hstage

theorem advances_of_advance (h : engine.advance me shared call = some (shared', call')) :
    engine.Advances me shared call shared' call' := by
  unfold advance at h
  cases hstage : call.stage with
  | working q =>
      rw [hstage] at h
      cases q with
      | done v => exact advances_finish (r := .ok v) hstage h
      | fail failure => exact advances_finish (r := .error failure) hstage h
      | note r q =>
          cases h
          exact .noted hstage
      | ask cell resume => exact advances_demand hstage (Option.some.inj h)
  | facing d =>
      simp only [hstage] at h
      cases hclaim : shared.claims[d.claim]? with
      | none => simp [hclaim] at h
      | some claim =>
          simp only [hclaim] at h
          split at h
          · rename_i hcircular
            cases h
            exact .refused hstage hclaim hcircular
          · rename_i hcircular
            cases h
            exact .registered hstage hclaim hcircular
  | waiting d =>
      simp only [hstage] at h
      split at h
      · rename_i hclaim
        cases h
        exact .woke hstage hclaim
      · cases h
  | woken d value? =>
      simp only [hstage] at h
      cases h
      exact .left hstage

end Engine

/-- A call is over if it computes no cell and its inquiry has come to something. -/
theorem Call.result?_eq_some {call : Call} {r : Except Failure Value} (h : call.result? = some r) :
    call.frames = [] ∧ call.stage = .working (.resumed .done r) := by
  unfold Call.result? at h
  split at h
  · rename_i hframes hstage
    cases h
    exact ⟨hframes, hstage⟩
  · rename_i hframes hstage
    cases h
    exact ⟨hframes, hstage⟩
  · cases h

/-! ## Sessions that are reached -/

namespace Session

/-- The cells that a call has under computation with the claims on them, innermost first. -/
def frames (s : Session) (i : Nat) : List Demand := (s.calls[i]?).elim [] Call.frames

/-- The sessions that calls come to by their steps from a memory, each step being allowed. The
queries are those that the calls were made with. -/
inductive Reached (engine : Engine) (memory : Memory) (allowed : Session → Nat → Prop) :
    List Query → Session → Prop where
  | start : Reached engine memory allowed [] { shared := { memory } }
  | joined {queries : List Query} {s : Session} (query : Query) :
      Reached engine memory allowed queries s →
      Reached engine memory allowed (queries ++ [query]) (s.join (query.prepare engine))
  | moved {queries : List Query} {s s' : Session} {i : Nat} :
      Reached engine memory allowed queries s → allowed s i → s.step? engine i = some s' →
      Reached engine memory allowed queries s'

variable {engine : Engine} {s s' : Session} {i : Nat}

/-- A step is one of the things that a call can do, and changes no other call. -/
theorem step?_eq_some (h : s.step? engine i = some s') :
    ∃ call call', s.calls[i]? = some call ∧
      engine.Advances i s.shared call s'.shared call' ∧
      s'.calls[i]? = some call' ∧ (∀ j, j ≠ i → s'.calls[j]? = s.calls[j]?) ∧
      s'.calls.size = s.calls.size := by
  unfold step? at h
  cases hcall : s.calls[i]? with
  | none => simp [hcall] at h
  | some call =>
      simp only [hcall] at h
      cases hadvance : engine.advance i s.shared call with
      | none => simp [hadvance] at h
      | some next =>
          obtain ⟨shared', call'⟩ := next
          simp only [hadvance, Option.some.injEq] at h
          subst h
          have hlt : i < s.calls.size := (Array.getElem?_eq_some_iff.mp hcall).1
          refine ⟨call, call', rfl, Engine.advances_of_advance hadvance, ?_, fun j hj => ?_,
            Array.size_setIfInBounds⟩
          · simp [hlt]
          · simp [Ne.symm hj]

/-- The session in which calls have been made and have not taken a step. -/
def ofQueries (engine : Engine) (memory : Memory) (queries : List Query) : Session :=
  queries.foldl (fun s query => s.join (query.prepare engine)) { shared := { memory } }

theorem reached_ofQueries (engine : Engine) (memory : Memory) (allowed : Session → Nat → Prop)
    (queries : List Query) :
    (ofQueries engine memory queries).Reached engine memory allowed queries := by
  have hfold (before : List Query) (s : Session) (h : s.Reached engine memory allowed before) :
      (queries.foldl (fun s query => s.join (query.prepare engine)) s).Reached engine memory allowed
        (before ++ queries) := by
    induction queries generalizing before s with
    | nil => simpa using h
    | cons query queries ih =>
        rw [List.append_cons]
        exact ih _ _ (h.joined query)
  exact hfold [] _ .start

/-- Whatever the schedule, what calls come to is reached. -/
theorem Reached.run {memory : Memory} {queries : List Query}
    (h : s.Reached engine memory (fun _ _ => True) queries) (schedule : List Nat) :
    (s.run engine schedule).Reached engine memory (fun _ _ => True) queries := by
  induction schedule generalizing s with
  | nil => exact h
  | cons i schedule ih =>
      have hnext : ((s.step? engine i).getD s).Reached engine memory (fun _ _ => True) queries := by
        cases hstep : s.step? engine i with
        | none => exact h
        | some s' => exact h.moved trivial hstep
      exact ih hnext

/-- A call that joins works on its inquiry, or has failed. -/
theorem join_eq (s : Session) (start : Evaluation (Inquiry Value)) :
    ∃ q memory, s.join start =
      { shared := { s.shared with memory }, calls := s.calls.push { stage := .working q } } :=
  ⟨_, _, rfl⟩

end Session

/-! ## Claims -/

namespace Shared

variable {shared : Shared} {k owner : Nat} {cell : CellAddress}

/-- A claim is pending. -/
def Pending (shared : Shared) (k : Nat) (cell : CellAddress) (owner : Nat) : Prop :=
  shared.claims[k]? = some ⟨cell, owner, .pending⟩

/-- A claim was made on the cell by the call, whether it is pending or not. -/
def Made (shared : Shared) (k : Nat) (cell : CellAddress) (owner : Nat) : Prop :=
  ∃ state, shared.claims[k]? = some ⟨cell, owner, state⟩

theorem Pending.made (h : shared.Pending k cell owner) : shared.Made k cell owner := ⟨_, h⟩

theorem Made.unique {cell' : CellAddress} {owner' : Nat} (h : shared.Made k cell owner)
    (h' : shared.Made k cell' owner') : cell = cell' ∧ owner = owner' := by
  obtain ⟨_, h⟩ := h
  obtain ⟨_, h'⟩ := h'
  cases h.symm.trans h'
  exact ⟨rfl, rfl⟩

theorem Pending.unique {cell' : CellAddress} {owner' : Nat} (h : shared.Pending k cell owner)
    (h' : shared.Pending k cell' owner') : cell = cell' ∧ owner = owner' := h.made.unique h'.made

theorem pending_claim {me : Nat} {c : CellAddress} :
    (shared.claim me c).Pending k cell owner ↔
      shared.Pending k cell owner ∨ k = shared.claims.size ∧ cell = c ∧ owner = me := by
  unfold Pending claim
  rw [Array.getElem?_push]
  split
  · rename_i hk
    subst hk
    simp [eq_comm]
  · rename_i hk
    simp [hk]

theorem Made.claim {me : Nat} {c : CellAddress} (h : shared.Made k cell owner) :
    (shared.claim me c).Made k cell owner := by
  obtain ⟨state, h⟩ := h
  have hlt : k < shared.claims.size := (Array.getElem?_eq_some_iff.mp h).1
  exact ⟨state, by simp [Shared.claim, Array.getElem?_push, Nat.ne_of_lt hlt, h]⟩

theorem claims_release (shared : Shared) (remember : Bool) (d : Demand) (value? : Option Value) :
    (shared.release remember d value?).claims =
      shared.claims.modify d.claim fun c => { c with state := .resolved value? } := by
  unfold release
  split <;> rfl

theorem waits_release (shared : Shared) (remember : Bool) (d : Demand) (value? : Option Value) :
    (shared.release remember d value?).waits = shared.waits := by
  unfold release
  split <;> rfl

/-- The claim on a cell that a call was computing is given up. -/
theorem claimed_release {d : Demand} (hd : shared.claimed[d.cell]? = some d.claim)
    (remember : Bool) (value? : Option Value) :
    (shared.release remember d value?).claimed = shared.claimed.erase d.cell := by
  unfold release
  split
  · rfl
  · simp [hd]

theorem pending_release {remember : Bool} {d : Demand} {value? : Option Value} :
    (shared.release remember d value?).Pending k cell owner ↔
      shared.Pending k cell owner ∧ k ≠ d.claim := by
  unfold Pending
  rw [claims_release, Array.getElem?_modify]
  split
  · rename_i hk
    simp [hk]
  · rename_i hk
    simp [Ne.symm hk]

theorem Made.release {remember : Bool} {d : Demand} {value? : Option Value}
    (h : shared.Made k cell owner) : (shared.release remember d value?).Made k cell owner := by
  obtain ⟨state, h⟩ := h
  unfold Made
  rw [claims_release, Array.getElem?_modify]
  split
  · exact ⟨.resolved value?, by simp [h]⟩
  · exact ⟨state, h⟩

/-- Claims that were made stay. -/
theorem Made.step {engine : Engine} {me : Nat} {shared' : Shared} {call call' : Call}
    (h : shared.Made k cell owner) (hstep : engine.Advances me shared call shared' call') :
    shared'.Made k cell owner := by
  cases hstep with
  | noted _ =>
      cases call.frames.head? <;> exact h
  | claimed _ _ _ => exact h.claim
  | finished _ _ => exact h.release
  | answered _ _ | faced _ _ | refused _ _ _ | registered _ _ _ | woke _ _ | left _ => exact h

end Shared

/-- The pending claims are those of the cells that calls have under computation, and those that
are found when a cell is asked for. -/
structure Shared.Owned (shared : Shared) (frames : Nat → List Demand) : Prop where
  pending : ∀ i, ∀ d ∈ frames i, shared.Pending d.claim d.cell i
  nodup : ∀ i, ((frames i).map Demand.claim).Nodup
  frame : ∀ k cell i, shared.Pending k cell i → ∃ d ∈ frames i, d.claim = k
  claimed : ∀ cell k, shared.claimed[cell]? = some k ↔ ∃ i, shared.Pending k cell i

namespace Shared.Owned

variable {shared : Shared} {frames frames' : Nat → List Demand}

/-- A cell has at most one pending claim. -/
theorem unique (h : shared.Owned frames) {k k' i i' : Nat} {cell : CellAddress}
    (hk : shared.Pending k cell i) (hk' : shared.Pending k' cell i') : k = k' := by
  have hclaimed := (h.claimed cell k).mpr ⟨i, hk⟩
  rw [(h.claimed cell k').mpr ⟨i', hk'⟩] at hclaimed
  exact (Option.some.inj hclaimed).symm

theorem claim (h : shared.Owned frames) {i : Nat} {cell : CellAddress}
    {resume : Value → Inquiry Value} (hfree : shared.claimed[cell]? = none)
    (hself : frames' i = ⟨cell, shared.claims.size, resume⟩ :: frames i)
    (hother : ∀ j, j ≠ i → frames' j = frames j) : (shared.claim i cell).Owned frames' where
  pending := by
    intro j d hd
    rw [pending_claim]
    by_cases hj : j = i
    · subst hj
      rw [hself] at hd
      obtain rfl | hd := List.mem_cons.mp hd
      · exact .inr ⟨rfl, rfl, rfl⟩
      · exact .inl (h.pending j d hd)
    · rw [hother j hj] at hd
      exact .inl (h.pending j d hd)
  nodup := by
    intro j
    by_cases hj : j = i
    · subst hj
      rw [hself, List.map_cons, List.nodup_cons]
      refine ⟨fun hmem => ?_, h.nodup j⟩
      obtain ⟨d, hd, hclaim⟩ := List.mem_map.mp hmem
      have hlt := (Array.getElem?_eq_some_iff.mp (h.pending j d hd)).1
      exact absurd hclaim (Nat.ne_of_lt hlt)
    · rw [hother j hj]
      exact h.nodup j
  frame := by
    intro k c j hk
    obtain hk | ⟨rfl, rfl, rfl⟩ := pending_claim.mp hk
    · obtain ⟨d, hd, hclaim⟩ := h.frame k c j hk
      by_cases hj : j = i
      · subst hj
        exact ⟨d, hself ▸ List.mem_cons_of_mem _ hd, hclaim⟩
      · exact ⟨d, (hother j hj).symm ▸ hd, hclaim⟩
    · exact ⟨_, hself ▸ List.mem_cons_self, rfl⟩
  claimed := by
    intro c k
    simp only [pending_claim]
    change (shared.claimed.insert cell shared.claims.size)[c]? = some k ↔ _
    rw [TreeMap.getElem?_insert]
    split
    · rename_i hc
      obtain rfl : cell = c := LawfulEqCmp.compare_eq_iff_eq.mp hc
      have hnone (j : Nat) : ¬ shared.Pending k cell j := fun hk => by
        rw [(h.claimed cell k).mpr ⟨j, hk⟩] at hfree
        cases hfree
      simp [hnone, eq_comm]
    · rename_i hc
      have hne : c ≠ cell := fun hc' => hc (LawfulEqCmp.compare_eq_iff_eq.mpr hc'.symm)
      simp [h.claimed c k, hne]

/-- The frames that are left when a frame is taken off hold other claims than it does. -/
theorem claim_ne_of_left (h : shared.Owned frames) {i : Nat} {d : Demand}
    (hself : frames i = d :: frames' i) (hother : ∀ j, j ≠ i → frames' j = frames j) {j : Nat}
    {e : Demand} (he : e ∈ frames' j) : e ∈ frames j ∧ e.claim ≠ d.claim := by
  by_cases hj : j = i
  · -- in one call they differ as its frames do
    subst hj
    have hnodup := h.nodup j
    rw [hself, List.map_cons, List.nodup_cons] at hnodup
    refine ⟨hself ▸ List.mem_cons_of_mem d he, fun hclaim => hnodup.1 ?_⟩
    exact hclaim ▸ List.mem_map_of_mem he
  · -- in two calls they differ since a claim has one owner
    rw [hother j hj] at he
    refine ⟨he, fun hclaim => hj ?_⟩
    have hd : shared.Pending d.claim d.cell i := h.pending i d (hself ▸ List.mem_cons_self)
    exact ((hclaim ▸ h.pending j e he).unique hd).2

theorem release (h : shared.Owned frames) {i : Nat} {d : Demand}
    (hself : frames i = d :: frames' i) (hother : ∀ j, j ≠ i → frames' j = frames j)
    (remember : Bool) (value? : Option Value) :
    (shared.release remember d value?).Owned frames' where
  pending := by
    intro j e he
    obtain ⟨he, hne⟩ := h.claim_ne_of_left hself hother he
    exact pending_release.mpr ⟨h.pending j e he, hne⟩
  nodup := by
    intro j
    by_cases hj : j = i
    · subst hj
      have hnodup := h.nodup j
      rw [hself, List.map_cons, List.nodup_cons] at hnodup
      exact hnodup.2
    · rw [hother j hj]
      exact h.nodup j
  frame := by
    intro k c j hk
    obtain ⟨hk, hne⟩ := pending_release.mp hk
    obtain ⟨e, he, hclaim⟩ := h.frame k c j hk
    refine ⟨e, ?_, hclaim⟩
    by_cases hj : j = i
    · subst hj
      rw [hself] at he
      obtain rfl | he := List.mem_cons.mp he
      · exact absurd hclaim.symm hne
      · exact he
    · rwa [hother j hj]
  claimed := by
    intro c k
    have hd : shared.Pending d.claim d.cell i := h.pending i d (hself ▸ List.mem_cons_self)
    have hclaimed := (h.claimed d.cell d.claim).mpr ⟨i, hd⟩
    rw [claimed_release hclaimed, TreeMap.getElem?_erase]
    simp only [pending_release]
    split
    · -- the cell had no other pending claim, so it has none now
      rename_i hc
      obtain rfl : d.cell = c := LawfulEqCmp.compare_eq_iff_eq.mp hc
      refine ⟨fun hnone => (by cases hnone), fun ⟨j, hk, hne⟩ => ?_⟩
      exact absurd (h.unique hk hd) hne
    · rename_i hc
      rw [h.claimed c k]
      refine exists_congr fun j => ⟨fun hk => ⟨hk, fun hkd => hc ?_⟩, And.left⟩
      subst hkd
      exact LawfulEqCmp.compare_eq_iff_eq.mpr (hd.unique hk).1

/-- What calls hold stays in order whatever a call does. -/
theorem step (h : shared.Owned frames) {engine : Engine} {i : Nat} {shared' : Shared}
    {call call' : Call} (hstep : engine.Advances i shared call shared' call')
    (hcall : frames i = call.frames) (hcall' : frames' i = call'.frames)
    (hother : ∀ j, j ≠ i → frames' j = frames j) : shared'.Owned frames' := by
  have hsame (hframes : call'.frames = call.frames) : frames' = frames := funext fun j => by
    by_cases hj : j = i
    · rw [hj, hcall', hframes, hcall]
    · exact hother j hj
  cases hstep with
  | noted _ =>
      rw [hsame rfl]
      cases call.frames.head? <;> exact ⟨h.pending, h.nodup, h.frame, h.claimed⟩
  | claimed _ hsees _ =>
      cases hsees with
      | free _ _ _ hfree =>
          have hclaim := h.claim hfree (hcall'.trans (by rw [hcall])) hother
          exact ⟨hclaim.pending, hclaim.nodup, hclaim.frame, hclaim.claimed⟩
  | finished hframes _ => exact h.release (by rw [hcall, hframes, hcall']) hother _ _
  | answered _ _ | faced _ _ | refused _ _ _ | registered _ _ _ | woke _ _ | left _ =>
      rw [hsame rfl]
      exact ⟨h.pending, h.nodup, h.frame, h.claimed⟩

end Shared.Owned

namespace Session

variable {engine : Engine} {memory : Memory} {allowed : Session → Nat → Prop}
  {queries : List Query} {s s' : Session} {i : Nat}

theorem frames_join (s : Session) (start : Evaluation (Inquiry Value)) :
    (s.join start).frames = s.frames := by
  obtain ⟨q, memory, h⟩ := s.join_eq start
  rw [h]
  funext j
  simp only [frames, Array.getElem?_push]
  split
  · rename_i hj
    simp [hj]
  · rfl

theorem Reached.owned (h : s.Reached engine memory allowed queries) :
    s.shared.Owned s.frames := by
  induction h with
  | start =>
      exact ⟨by simp [frames], by simp [frames], by simp [Shared.Pending],
        by simp [Shared.Pending]⟩
  | @joined _ s query _ ih =>
      rw [frames_join]
      obtain ⟨q, memory, hjoin⟩ := s.join_eq (query.prepare engine)
      rw [hjoin]
      exact ⟨ih.pending, ih.nodup, ih.frame, ih.claimed⟩
  | moved _ _ hstep ih =>
      obtain ⟨call, call', hcall, hadvances, hcall', hother, -⟩ := step?_eq_some hstep
      refine ih.step hadvances (by simp [frames, hcall]) (by simp [frames, hcall']) fun j hj => ?_
      simp [frames, hother j hj]

end Session

end Spreadsheet
