-- SUMMARY: Calls that run at the same time compute plain values, and which circles they invent.
import Spreadsheet.Proofs.Deadlock
import Spreadsheet.Proofs.Queries

/-!
# Calls at the same time

As long as no call is refused to wait, calls that run at the same time compute plain values, in
whatever order they take their steps. Where no formula is on a circle, a call should never be
refused. It is refused nevertheless if waits are followed that are registered still although
their claims are resolved: a woken call gives up its registration in a step of its own. No other
wait leads to a refusal.
-/

namespace Spreadsheet

open Relation Std

namespace Engine

variable {engine : Engine} {r₀ r : Except Failure Value} {frames : List Demand}
  {q : Inquiry Value} {c x y : CellAddress} {resume : Value → Inquiry Value} {k : Nat}

/-! ## Computations on their way -/

/-- The cell comes to something at a bound at which the other one does not. -/
def Below (engine : Engine) (c x : CellAddress) : Prop :=
  ∃ n a, engine.plain n c = some a ∧ engine.plain n x = none

theorem not_below_self : ¬ engine.Below c c := by
  rintro ⟨n, a, ha, hnone⟩
  rw [ha] at hnone
  cases hnone

theorem Below.trans (h : engine.Below c x) (h' : engine.Below x y) : engine.Below c y := by
  obtain ⟨n, a, ha, hnone⟩ := h
  obtain ⟨k, b, hb, hnone'⟩ := h'
  obtain hle | hle := Nat.le_total n k
  · exact ⟨k, a, plain_mono hle ha, hnone'⟩
  · rw [plain_mono hle hb] at hnone
    cases hnone

/-- The inquiry will come to the plain result of the innermost cell under computation, what goes
on with that to the one of the next cell, and so on; what goes on at last comes to `r₀`. -/
inductive OnTrack (engine : Engine) (r₀ : Except Failure Value) :
    List Demand → Inquiry Value → Prop where
  | outer {n : Nat} {q : Inquiry Value} :
      engine.Attains n (.inquiry 0 [] none q) r₀ → OnTrack engine r₀ [] q
  | inner {n k : Nat} {d : Demand} {frames : List Demand} {q : Inquiry Value}
      {r : Except Failure Value} :
      engine.Attains n (.inquiry 0 ((d :: frames).map Demand.cell) none q) r →
      engine.plain k d.cell = some r → OnTrack engine r₀ frames (.ask d.cell d.resume) →
      OnTrack engine r₀ (d :: frames) q
  /-- The formula of the innermost cell cannot be read. -/
  | unreadable {d : Demand} {frames : List Demand} {failure : Failure} :
      engine.holding d.cell = .result (.error failure) →
      OnTrack engine r₀ frames (.ask d.cell d.resume) →
      OnTrack engine r₀ (d :: frames) (.fail failure)

/-- A cell that is asked for comes to something before the cells under computation do. -/
theorem OnTrack.ask (h : engine.OnTrack r₀ frames (.ask c resume)) :
    ∃ n a, engine.Attains n (.cell 0 (frames.map Demand.cell) c) a := by
  cases h with
  | outer h => exact ⟨_, h.answer⟩
  | inner h _ _ => exact ⟨_, h.answer⟩

theorem OnTrack.asked_below (h : engine.OnTrack r₀ frames (.ask c resume)) {d : Demand}
    (hd : d ∈ frames) : engine.Below c d.cell := by
  obtain ⟨n, a, ha, hnone⟩ := h.ask
  exact ⟨n, a, ha, hnone d.cell (List.mem_map_of_mem hd)⟩

theorem OnTrack.notMem (h : engine.OnTrack r₀ frames (.ask c resume)) :
    c ∉ frames.map Demand.cell := by
  intro hmem
  obtain ⟨d, hd, rfl⟩ := List.mem_map.mp hmem
  exact not_below_self (h.asked_below hd)

theorem OnTrack.note {reading : Reading} (h : engine.OnTrack r₀ frames (.note reading q)) :
    engine.OnTrack r₀ frames q := by
  cases h with
  | outer h => exact .outer h
  | inner h hplain hrest => exact .inner h hplain hrest

/-- An attained inquiry goes on with the plain result of the cell that it asks for. -/
theorem Attains.resumed {n : Nat} {chain : List CellAddress}
    (h : engine.Attains n (.inquiry 0 chain none (.ask c resume)) r) {a : Except Failure Value}
    (ha : engine.plain k c = some a) :
    engine.Attains n (.inquiry 0 chain none (.resumed resume a)) r := by
  obtain ⟨failure, rfl, hc⟩ | ⟨v, hc, hrest⟩ := h.ask
  · obtain rfl := plain_unique ha hc.1
    exact ⟨rfl, h.2⟩
  · obtain rfl := plain_unique ha hc.1
    exact hrest

theorem OnTrack.resumed (h : engine.OnTrack r₀ frames (.ask c resume))
    {a : Except Failure Value} (ha : engine.plain k c = some a) :
    engine.OnTrack r₀ frames (.resumed resume a) := by
  cases h with
  | outer h => exact .outer (h.resumed ha)
  | inner h hplain hrest => exact .inner (h.resumed ha) hplain hrest

/-- The formula of a cell that is asked for comes to the plain result of the cell. -/
theorem OnTrack.enter (hu : engine.Uniform) (h : engine.OnTrack r₀ frames (.ask c resume))
    {e : Formula.Expr} (he : engine.holding c = .formula e) (claim : Nat) :
    engine.OnTrack r₀ (⟨c, claim, resume⟩ :: frames)
      (engine.inquiry (frames.map Demand.cell) c e) := by
  obtain ⟨n, a, ha⟩ := h.ask
  obtain ⟨k, -, hk⟩ := ha.inquiry (d := 0) hu he
  exact .inner hk ha.1 h

/-- An inquiry that is over has come to the plain result of the innermost cell, and what waits for
it is on its way. -/
theorem OnTrack.leave {d : Demand} (h : engine.OnTrack r₀ (d :: frames) (.resumed .done r)) :
    (∃ k, engine.plain k d.cell = some r) ∧
      engine.OnTrack r₀ frames (.resumed d.resume r) := by
  have hover (n : Nat) : (Inquiry.resumed .done r).evaluate (engine.plain n) = some r := by
    cases r <;> rfl
  generalize hq : Inquiry.resumed .done r = q at h hover
  cases h with
  | @inner n k _ _ _ r' h hplain hrest =>
      obtain rfl : r = r' := Option.some.inj ((hover n).symm.trans h.1)
      exact ⟨⟨k, hplain⟩, hrest.resumed hplain⟩
  | @unreadable _ _ failure hholding hrest =>
      obtain rfl : r = .error failure := (Option.some.inj (hover 0)).symm
      have hplain := plain_of_result hholding 0
      exact ⟨⟨0, hplain⟩, hrest.resumed hplain⟩

theorem OnTrack.over (h : engine.OnTrack r₀ [] (.resumed .done r)) : r = r₀ := by
  cases h with
  | outer h =>
      refine Option.some.inj (Eq.trans ?_ h.1)
      cases r <;> rfl

end Engine

/-! ## Calls on their way -/

/-- What a call goes on with, once it has what it waits for. -/
def Stage.inquiry : Stage → Inquiry Value
  | .working q => q
  | .facing d | .waiting d | .woken d _ => .ask d.cell d.resume

/-- The call will come to `r₀`, or gives up at too deep a nesting. -/
def Call.Heads (engine : Engine) (r₀ : Except Failure Value) (call : Call) : Prop :=
  (engine.OnTrack r₀ call.frames call.stage.inquiry ∧
      ∀ d v, call.stage = .woken d (some v) → ∃ n, engine.plain n d.cell = some (.ok v)) ∨
    call.stage = .working (.fail (.tooDeep engine.settings.maxDepth))

theorem Engine.OnTrack.heads {r₀ : Except Failure Value} {frames : List Demand}
    {q : Inquiry Value} (h : engine.OnTrack r₀ frames q) :
    Call.Heads engine r₀ { frames, stage := .working q } :=
  .inl ⟨h, fun _ _ hstage => by cases hstage⟩

/-- What calls share tells nothing but plain values. -/
structure Shared.Plain (engine : Engine) (shared : Shared) : Prop where
  formulas : engine.FormulasRead shared.memory
  sound : engine.Sound shared.memory
  claims : ∀ (k : Nat) cell owner v,
    shared.claims[k]? = some ⟨cell, owner, .resolved (some v)⟩ →
      ∃ n, engine.plain n cell = some (.ok v)

namespace Engine

variable {engine : Engine} {m : Memory} {chain : List CellAddress} {cell : CellAddress}

/-- The formula of a claimed cell cannot be read, is nested too deep, or begins to be computed. -/
theorem start_cases (hm : engine.FormulasRead m) {content : CellContent} {text : String}
    (hread : engine.source.workbook.read cell = .ok content) (htext : content.formula = some text)
    {q : Inquiry Value} {m' : Memory} (h : engine.start chain cell text m = (q, m')) :
    engine.FormulasRead m' ∧ m'.values = m.values ∧
      ((∃ failure, engine.holding cell = .result (.error failure) ∧ q = .fail failure) ∨
        q = .fail (.tooDeep engine.settings.maxDepth) ∨
        ∃ e, engine.holding cell = .formula e ∧ q = engine.inquiry chain cell e) := by
  unfold start at h
  cases he : engine.registry.readFormula text with
  | error failure =>
      have hon : (engine.formula text).run.run m = (.error failure, m) :=
        formula_on_of_error hm he
      simp only [hon] at h
      cases h
      exact ⟨hm, rfl, .inl ⟨failure, by simp [holding, hread, htext, he], rfl⟩⟩
  | ok e =>
      obtain ⟨formulas, hon, hread'⟩ := formula_on_of_read hm he
      have hon : (engine.formula text).run.run m = (.ok e, { m with formulas }) := hon
      simp only [hon] at h
      split at h
      · cases h
        exact ⟨hread', rfl, .inr (.inl rfl)⟩
      · cases h
        exact ⟨hread', rfl, .inr (.inr ⟨e, by simp [holding, hread, htext, he], rfl⟩)⟩

end Engine

namespace Shared.Plain

open Engine

variable {engine : Engine} {shared shared' : Shared} {i : Nat} {call call' : Call}

theorem note (h : shared.Plain engine) (reader : Option Demand) (r : Reading) :
    (shared.note reader r).Plain engine := by
  cases reader <;> exact ⟨h.formulas, h.sound, h.claims⟩

theorem claim (h : shared.Plain engine) {m : Memory} (hm : engine.FormulasRead m)
    (hvalues : m.values = shared.memory.values) (owner : Nat) (cell : CellAddress) :
    Shared.Plain engine { shared.claim owner cell with memory := m } where
  formulas := hm
  sound := fun x v hx => h.sound x v (hvalues ▸ hx)
  claims := by
    intro k c o v hk
    have hget : (shared.claims.push ⟨cell, owner, .pending⟩)[k]? =
        some ⟨c, o, .resolved (some v)⟩ := hk
    rw [Array.getElem?_push] at hget
    split at hget
    · cases hget
    · exact h.claims k c o v hget

/-- A claim may be resolved with the plain value of its cell. -/
theorem release (h : shared.Plain engine) {d : Demand} {owner : Nat}
    (hd : shared.Pending d.claim d.cell owner) (remember : Bool) {value? : Option Value}
    (hvalue : ∀ v, value? = some v → ∃ n, engine.plain n d.cell = some (.ok v)) :
    (shared.release remember d value?).Plain engine where
  formulas := by
    unfold Shared.release
    split <;> exact h.formulas
  sound := by
    unfold Shared.release
    split
    · rename_i w
      intro x v hx
      have hget : (shared.memory.values.insert d.cell w)[x]? = some v := hx
      rw [TreeMap.getElem?_insert] at hget
      split at hget
      · rename_i heq
        obtain rfl : d.cell = x := LawfulEqCmp.compare_eq_iff_eq.mp heq
        exact hvalue v hget
      · exact h.sound x v hget
    · exact h.sound
  claims := by
    intro k c o v hk
    rw [claims_release, Array.getElem?_modify] at hk
    split at hk
    · rename_i heq
      subst heq
      have hd : shared.claims[d.claim]? = some ⟨d.cell, owner, .pending⟩ := hd
      simp only [hd, Option.map_some, Option.some.injEq, Claim.mk.injEq,
        Claim.State.resolved.injEq] at hk
      obtain ⟨rfl, -, rfl⟩ := hk
      exact hvalue v rfl
    · exact h.claims k c o v hk

section

variable {r₀ : Except Failure Value} {frames : Nat → List Demand} {stages : Nat → Option Stage}
  (h : shared.Plain engine) (howned : shared.Owned frames)
  (hstep : engine.Advances i shared call shared' call') (hframes : frames i = call.frames)
include h howned hstep hframes

/-- A call that is on its way stays so, unless it is refused or comes to too deep a nesting. -/
theorem step_onTrack (hu : engine.Uniform) (hregistered : shared.Registered stages)
    (hstage : stages i = some call.stage)
    (htrack : engine.OnTrack r₀ call.frames call.stage.inquiry)
    (hwoken : ∀ d v, call.stage = .woken d (some v) → ∃ n, engine.plain n d.cell = some (.ok v))
    (hallowed : ∀ d claim, call.stage = .facing d → shared.claims[d.claim]? = some claim →
      ¬ shared.circular i claim.owner) :
    shared'.Plain engine ∧ call'.Heads engine r₀ := by
  cases hstep with
  | noted hworking =>
      rw [hworking] at htrack
      exact ⟨h.note _ _, htrack.note.heads⟩
  | @answered c resume r hworking hsees =>
      rw [hworking] at htrack
      refine ⟨h, Engine.OnTrack.heads ?_⟩
      cases hsees with
      -- what is asked for has a plain value, so it is none of the cells under computation
      | circle hmem => exact absurd hmem htrack.notMem
      | settled _ hholding => exact htrack.resumed (plain_of_result hholding 0)
      | remembered _ hv =>
          obtain ⟨n, hn⟩ := h.sound _ _ hv
          exact htrack.resumed hn
  | faced hworking _ =>
      rw [hworking] at htrack
      exact ⟨h, .inl ⟨htrack, nofun⟩⟩
  | claimed hworking hsees hstart =>
      rw [hworking] at htrack
      cases hsees with
      | free _ hread htext _ =>
          obtain ⟨hread', hvalues, hcases⟩ := start_cases h.formulas hread htext hstart
          refine ⟨h.claim hread' hvalues _ _, ?_⟩
          -- the text is not read, or it nests too deep, or the formula is computed next
          obtain ⟨failure, hholding, rfl⟩ | rfl | ⟨e, he, rfl⟩ := hcases
          · exact Engine.OnTrack.heads (.unreadable hholding htrack)
          · exact .inr rfl
          · exact (htrack.enter hu he _).heads
  | @finished d rest r hrest hworking =>
      rw [hworking, hrest] at htrack
      obtain ⟨hplain, htrack⟩ := htrack.leave
      have hpending := howned.pending i d (by rw [hframes, hrest]; exact List.mem_cons_self)
      refine ⟨h.release hpending _ fun v hv => ?_, htrack.heads⟩
      cases r with
      | error failure => cases hv
      | ok w =>
          cases hv
          exact hplain
  | refused hfacing hclaim hcircular => exact absurd hcircular (hallowed _ _ hfacing hclaim)
  | registered hfacing _ _ =>
      rw [hfacing] at htrack
      exact ⟨⟨h.formulas, h.sound, h.claims⟩, .inl ⟨htrack, nofun⟩⟩
  | @woke d cell owner value? hwaiting hclaim =>
      rw [hwaiting] at htrack
      refine ⟨h, .inl ⟨htrack, fun d' v heq => ?_⟩⟩
      cases heq
      -- the claim that the call has registered for is the one that was resolved
      obtain ⟨owner', hmade⟩ := hregistered.made i _ d hstage (by rw [hwaiting]; rfl)
      obtain ⟨rfl, -⟩ := hmade.unique ⟨_, hclaim⟩
      exact h.claims _ _ _ _ hclaim
  | @left d value? hleft =>
      rw [hleft] at htrack
      refine ⟨⟨h.formulas, h.sound, h.claims⟩, Engine.OnTrack.heads ?_⟩
      cases value? with
      | none => exact htrack
      | some v =>
          obtain ⟨n, hn⟩ := hwoken d v hleft
          exact htrack.resumed hn

/-- A computation that gives up makes those give up that wait for it. -/
theorem step_tooDeep
    (hdeep : call.stage = .working (.fail (.tooDeep engine.settings.maxDepth))) :
    shared'.Plain engine ∧
      call'.stage = .working (.fail (.tooDeep engine.settings.maxDepth)) := by
  cases hstep with
  | @finished d rest r hrest hworking =>
      have hr : r = .error (.tooDeep engine.settings.maxDepth) := by
        rw [hdeep] at hworking
        cases r with
        | ok v => cases hworking
        | error failure =>
            cases hworking
            rfl
      have hpending := howned.pending i d (by rw [hframes, hrest]; exact List.mem_cons_self)
      subst hr
      exact ⟨h.release hpending _ nofun, rfl⟩
  | noted hworking => rw [hdeep] at hworking; cases hworking
  | answered hworking _ => rw [hdeep] at hworking; cases hworking
  | faced hworking _ => rw [hdeep] at hworking; cases hworking
  | claimed hworking _ _ => rw [hdeep] at hworking; cases hworking
  | refused hfacing _ _ => rw [hdeep] at hfacing; cases hfacing
  | registered hfacing _ _ => rw [hdeep] at hfacing; cases hfacing
  | woke hwaiting _ => rw [hdeep] at hwaiting; cases hwaiting
  | left hleft => rw [hdeep] at hleft; cases hleft

/-- As long as no call is refused, steps keep calls on their way. -/
theorem step (hu : engine.Uniform) (hregistered : shared.Registered stages)
    (hstage : stages i = some call.stage) (hheads : call.Heads engine r₀)
    (hallowed : ∀ d claim, call.stage = .facing d → shared.claims[d.claim]? = some claim →
      ¬ shared.circular i claim.owner) :
    shared'.Plain engine ∧ call'.Heads engine r₀ := by
  obtain ⟨htrack, hwoken⟩ | hdeep := hheads
  · exact h.step_onTrack howned hstep hframes hu hregistered hstage htrack hwoken hallowed
  · exact (h.step_tooDeep howned hstep hframes hdeep).imp_right .inr

end

end Shared.Plain

/-! ## Replies -/

/-- What a query comes to when every cell has its plain value. -/
inductive Query.ComesTo (engine : Engine) (query : Query) : Except Failure Value → Prop where
  | failed {failure : Failure} :
      query.inquiry engine = .error failure → ComesTo engine query (.error failure)
  | computed {n : Nat} {q : Inquiry Value} {r : Except Failure Value} :
      query.inquiry engine = .ok q → engine.Attains n (.inquiry 0 [] none q) r →
      ComesTo engine query r

theorem Query.inquiry_nesting (query : Query) (engine : Engine) (depth : Nat) :
    query.inquiry (engine.nesting depth) = query.inquiry engine := by
  cases query <;> rfl

/-- An evaluator that has learned nothing gives the plain result if formulas may nest deep enough. -/
theorem Query.ComesTo.reply {engine : Engine} (hregistry : engine.registry = .builtins)
    {query : Query} {r : Except Failure Value} (h : query.ComesTo engine r) :
    ∃ least, ∀ depth, least ≤ depth →
      ((Evaluator.fresh (engine.nesting depth)).reply query).1 = r := by
  cases h with
  | failed hq =>
      refine ⟨0, fun depth _ => ?_⟩
      have hq' := (query.inquiry_nesting engine depth).trans hq
      obtain ⟨_, hreply, -, -⟩ :=
        Evaluator.reply_error (Evaluator.reliable_fresh (engine.nesting depth)).formulas hq'
      rw [hreply]
  | @computed n q _ hq hattains =>
      refine ⟨n, fun depth hdepth => ?_⟩
      have hq' := (query.inquiry_nesting engine depth).trans hq
      have hfresh := Evaluator.reliable_fresh (engine.nesting depth)
      obtain ⟨_, s, m', log, hreply, hruns, -, -⟩ := Evaluator.reply_runs hfresh.formulas hq'
      have hattains' : (engine.nesting depth).Attains n (.inquiry depth [] none q) r := by
        refine ⟨?_, by simp [Task.chain]⟩
        have hplain : (engine.nesting depth).plain n = engine.plain n :=
          Engine.plain_settings engine _ n
        simp only [Engine.outcome, hplain]
        exact hattains.1
      have hu : (engine.nesting depth).Uniform := Engine.uniform hregistry
      rw [hreply]
      obtain ⟨-, hs | ⟨-, hlt⟩, -⟩ := hruns.attains hu hfresh.faithful hattains'
      · exact hs
      · exact absurd (Nat.lt_of_lt_of_le hlt hdepth) (Nat.lt_irrefl _)

/-! ## Sessions -/

namespace Session

open Engine Evaluator

variable {engine : Engine} {memory : Memory} {queries : List Query} {s : Session} {i owner : Nat}

/-- A call faces a claim that another one made. -/
def Faces (s : Session) (i owner : Nat) : Prop :=
  ∃ d, s.stage? i = some (.facing d) ∧ s.shared.Made d.claim d.cell owner

/-- Whether the next step of a call is that it is refused to wait, and takes the cell that it asked
for to be circular. -/
def refused (s : Session) (i : Nat) : Bool :=
  match s.stage? i with
  | some (.facing d) => (s.shared.claims[d.claim]?).any fun c => s.shared.circular i c.owner
  | _ => false

/-- A call faces a claim, or is registered as waiting for it, although it is resolved. -/
def Stale (s : Session) (i : Nat) : Prop :=
  ∃ stage d cell owner value?, s.stage? i = some stage ∧ stage.demand? = some d ∧
    s.shared.claims[d.claim]? = some ⟨cell, owner, .resolved value?⟩

/-- Each call is on its way to the plain result of its query. -/
structure Plain (engine : Engine) (queries : List Query) (s : Session) : Prop where
  shared : s.shared.Plain engine
  count : queries.length = s.calls.size
  heads : ∀ (i : Nat) call, s.calls[i]? = some call → ∃ query r, queries[i]? = some query ∧
    query.ComesTo engine r ∧ call.Heads engine r

section

variable (hregistry : engine.registry = .builtins) (hcircle : ∀ cell, engine.CircleFree cell)
include hregistry hcircle

theorem Plain.join (h : s.Plain engine queries) (query : Query) :
    (s.join (query.prepare engine)).Plain engine (queries ++ [query]) := by
  let ev : Evaluator := { engine with memory := s.shared.memory }
  have hformulas : ev.FormulasRead ev.memory := h.shared.formulas
  obtain ⟨formulas, hon, hread⟩ := prepare_on hformulas query
  have hon : (query.prepare engine).run.run s.shared.memory =
      (query.inquiry engine, { s.shared.memory with formulas }) := hon
  -- the new call is on its way, or has failed as it should
  have hnew : ∃ r, query.ComesTo engine r ∧
      Call.Heads engine r { stage := .working (.begun (query.inquiry engine)) } := by
    cases hq : query.inquiry engine with
    | error failure =>
        refine ⟨_, .failed hq, Engine.OnTrack.heads (.outer (n := 0) ⟨rfl, ?_⟩)⟩
        simp [Task.chain]
    | ok q =>
        obtain ⟨n, r, hr⟩ := exists_attains hregistry hcircle 0 q
        exact ⟨r, .computed hq hr, Engine.OnTrack.heads (.outer hr)⟩
  unfold Session.join
  rw [hon]
  refine ⟨⟨hread, h.shared.sound, h.shared.claims⟩, by simp [h.count], fun j call hcall => ?_⟩
  rw [Array.getElem?_push] at hcall
  split at hcall
  · rename_i hj
    obtain ⟨r, hcomes, hheads⟩ := hnew
    cases hcall
    exact ⟨query, r, by simp [hj, ← h.count], hcomes, hheads⟩
  · obtain ⟨query', r, hquery, hcomes, hheads⟩ := h.heads j call hcall
    refine ⟨query', r, ?_, hcomes, hheads⟩
    rw [List.getElem?_append_left (List.getElem?_eq_some_iff.mp hquery).1]
    exact hquery

/-- As long as no call is refused to wait, every call is on its way. -/
theorem Reached.plain (hread : engine.FormulasRead memory) (hsound : engine.Sound memory)
    (hreached : s.Reached engine memory (fun s i => ¬ s.refused i) queries) :
    s.Plain engine queries := by
  induction hreached with
  | start => exact ⟨⟨hread, hsound, by simp⟩, rfl, by simp⟩
  | joined query _ ih => exact ih.join hregistry hcircle query
  | @moved _ s s' i hreached hallowed hstep ih =>
      obtain ⟨call, call', hcall, hadvances, hcall', hother, hsize⟩ := step?_eq_some hstep
      obtain ⟨query, r, hquery, hcomes, hheads⟩ := ih.heads i call hcall
      have hstage : s.stage? i = some call.stage := by simp [stage?, hcall]
      have hframes : s.frames i = call.frames := by simp [frames, hcall]
      have hnext := ih.shared.step hreached.owned hadvances hframes (uniform hregistry)
        hreached.registered hstage hheads fun d claim hfacing hclaim hcircular =>
          hallowed (by simp [refused, hstage, hfacing, hclaim, hcircular])
      refine ⟨hnext.1, ih.count.trans hsize.symm, fun j call₁ hcall₁ => ?_⟩
      by_cases hj : j = i
      · subst hj
        cases hcall'.symm.trans hcall₁
        exact ⟨query, r, hquery, hcomes, hnext.2⟩
      · exact ih.heads j call₁ (hother j hj ▸ hcall₁)

end

/-- A call that has asked for a cell that was claimed is on its way. -/
theorem Plain.asks (h : s.Plain engine queries) {stage : Stage} {d : Demand}
    (hstage : s.stage? i = some stage) (hd : stage.demand? = some d) :
    ∃ r, engine.OnTrack r (s.frames i) (.ask d.cell d.resume) := by
  obtain ⟨call, hcall, rfl⟩ := Option.map_eq_some_iff.mp hstage
  obtain ⟨query, r, -, -, ⟨htrack, -⟩ | hdeep⟩ := h.heads i call hcall
  · refine ⟨r, ?_⟩
    simp only [frames, hcall, Option.elim_some]
    cases hs : call.stage with
    | working q => rw [hs] at hd; cases hd
    | facing e => rw [hs] at hd htrack; cases hd; exact htrack
    | waiting e => rw [hs] at hd htrack; cases hd; exact htrack
    | woken e value? => rw [hs] at hd htrack; cases hd; exact htrack
  · rw [hdeep] at hd
    cases hd

/-- A call is refused only because a claim is resolved on the way from the claim that it faces:
the cells of pending claims are computed from one another. -/
theorem Reached.stale_of_leads {allowed : Session → Nat → Prop}
    (hreached : s.Reached engine memory allowed queries) (hplain : s.Plain engine queries)
    (hfaces : s.Faces i owner) (hleads : ReflTransGen s.shared.Waits owner i) :
    ∃ j, ReflTransGen s.shared.Waits owner j ∧ s.Stale j := by
  by_contra hfresh
  obtain ⟨d, hstage, hmade⟩ := hfaces
  have hpending {j o : Nat} {stage : Stage} {e : Demand}
      (hj : ReflTransGen s.shared.Waits owner j) (hstage : s.stage? j = some stage)
      (he : stage.demand? = some e) (hmade : s.shared.Made e.claim e.cell o) :
      ∃ f ∈ s.frames o, f.cell = e.cell := by
    obtain ⟨state, hclaim⟩ := hmade
    cases state with
    | resolved value? =>
        exact absurd ⟨j, hj, stage, e, _, _, _, hstage, he, hclaim⟩ hfresh
    | pending =>
        obtain ⟨f, hf, hclaim'⟩ := hreached.owned.frame _ _ _ hclaim
        exact ⟨f, hf, ((hclaim' ▸ hreached.owned.pending o f hf).unique hclaim).1⟩
  -- each call on the way has a cell under computation that is computed from the one faced first
  have hbelow {j : Nat} (hj : ReflTransGen s.shared.Waits owner j) :
      ∃ e ∈ s.frames j, e.cell = d.cell ∨ engine.Below e.cell d.cell := by
    induction hj with
    | refl =>
        obtain ⟨e, he, hcell⟩ := hpending hleads hstage rfl hmade
        exact ⟨e, he, .inl hcell⟩
    | @tail j k hj hwaits ih =>
        obtain ⟨e, he, hle⟩ := ih
        obtain ⟨stage', f, hstage', hf, hmade'⟩ := (hreached.registered.waits j k).mp hwaits
        have hdemand := Stage.demand?_of_registered? hf
        obtain ⟨r, htrack⟩ := hplain.asks hstage' hdemand
        obtain ⟨g, hg, hcell⟩ := hpending hj hstage' hdemand hmade'
        have hless : engine.Below g.cell e.cell := hcell ▸ htrack.asked_below he
        refine ⟨g, hg, .inr ?_⟩
        obtain heq | hle := hle
        · exact heq ▸ hless
        · exact hless.trans hle
  obtain ⟨r, htrack⟩ := hplain.asks hstage rfl
  obtain ⟨e, he, hle⟩ := hbelow hleads
  have hless : engine.Below d.cell e.cell := htrack.asked_below he
  obtain heq | hle := hle
  · exact not_below_self (heq ▸ hless)
  · exact not_below_self (hless.trans hle)

/-- A call that is over has come to the plain result, or has given up. -/
theorem Plain.comesTo (h : s.Plain engine queries) {query : Query} {r : Except Failure Value}
    (hquery : queries[i]? = some query) (hresult : s.result? i = some r) :
    r = .error (.tooDeep engine.settings.maxDepth) ∨ query.ComesTo engine r := by
  obtain ⟨call, hcall, hover⟩ := Option.bind_eq_some_iff.mp hresult
  obtain ⟨query', r', hquery', hcomes, hheads⟩ := h.heads i call hcall
  cases hquery.symm.trans hquery'
  obtain ⟨hframes, hstage⟩ := Call.result?_eq_some hover
  obtain ⟨htrack, -⟩ | hdeep := hheads
  · rw [hframes, hstage] at htrack
    obtain rfl : r = r' := htrack.over
    exact .inr hcomes
  · rw [hdeep] at hstage
    cases r with
    | ok v => cases hstage
    | error failure =>
        cases hstage
        exact .inl rfl

/-- A call that is refused to wait faces a claim whose owner waits for it. -/
theorem Reached.leads_of_refused {allowed : Session → Nat → Prop}
    (hreached : s.Reached engine memory allowed queries) (h : s.refused i) :
    ∃ owner, s.Faces i owner ∧ ReflTransGen s.shared.Waits owner i := by
  unfold refused at h
  split at h
  · rename_i d hstage
    obtain ⟨claim, hclaim, hcircular⟩ := (Option.any_eq_true _ _).mp h
    obtain ⟨owner, hmade⟩ := hreached.registered.made i _ d hstage rfl
    obtain ⟨-, rfl⟩ := hmade.unique ⟨claim.state, hclaim⟩
    exact ⟨_, ⟨d, hstage, hmade⟩, Shared.leadsTo_sound hcircular⟩
  · cases h

/-- On a workbook without circles, and as long as no call has been refused to wait: every call
that is over has come to what a fresh evaluator replies to its query, or has given up at too deep a
nesting; every value that is remembered is the plain one; and a call that is refused next is so
because of a claim that is resolved. -/
theorem replies_unless_refused (hregistry : engine.registry = .builtins)
    (hcircle : ∀ cell, engine.CircleFree cell) (earlier : List Query)
    (hreached : s.Reached engine ((fresh engine).queried earlier).memory
      (fun s i => ¬ s.refused i) queries) :
    (∀ (i : Nat) query r, queries[i]? = some query → s.result? i = some r →
      r = .error (.tooDeep engine.settings.maxDepth) ∨ ∃ least, ∀ depth, least ≤ depth →
        ((fresh (engine.nesting depth)).reply query).1 = r) ∧
      engine.Sound s.shared.memory ∧
      ∀ i, s.refused i →
        ∃ owner j, s.Faces i owner ∧ ReflTransGen s.shared.Waits owner j ∧ s.Stale j := by
  obtain ⟨hreliable, hengine⟩ := reliable_queried hregistry hcircle earlier
  have hread := hengine ▸ hreliable.formulas
  have hfaithful := hengine ▸ hreliable.faithful
  have hplain := hreached.plain hregistry hcircle hread fun x v hv => hfaithful.plain hv
  refine ⟨fun i query r hquery hresult => ?_, hplain.shared.sound, fun i hrefused => ?_⟩
  · obtain hdeep | hcomes := hplain.comesTo hquery hresult
    · exact .inl hdeep
    · exact .inr (hcomes.reply hregistry)
  · obtain ⟨owner, hfaces, hleads⟩ := hreached.leads_of_refused hrefused
    obtain ⟨j, hj, hstale⟩ := hreached.stale_of_leads hplain hfaces hleads
    exact ⟨owner, j, hfaces, hj, hstale⟩

/-! ## A workbook of two cells -/

/-- Whether no call is refused to wait while calls take steps as the schedule tells. -/
def unrefused (engine : Engine) (s : Session) : (schedule : List Nat) → Bool
  | [] => true
  | i :: schedule => !s.refused i && unrefused engine ((s.step? engine i).getD s) schedule

theorem Reached.run_unrefused (h : s.Reached engine memory (fun s i => ¬ s.refused i) queries)
    {schedule : List Nat} (hschedule : s.unrefused engine schedule) :
    (s.run engine schedule).Reached engine memory (fun s i => ¬ s.refused i) queries := by
  induction schedule generalizing s with
  | nil => exact h
  | cons i schedule ih =>
      simp only [unrefused, Bool.and_eq_true, Bool.not_eq_true'] at hschedule
      have hnext : ((s.step? engine i).getD s).Reached engine memory (fun s i => ¬ s.refused i)
          queries := by
        cases hstep : s.step? engine i with
        | none => exact h
        | some s' => exact h.moved (by simp [hschedule.1]) hstep
      exact ih hnext hschedule.2

/-- Two calls are made for the cell that holds the formula `=A1`. -/
def asked : Session :=
  ofQueries (.pair true "A1") {} [.cell Workbook.pairFormula, .cell Workbook.pairFormula]

/-- The first call computes the cell while the second one waits for it. -/
def turns : List Nat := [0, 1, 1, 0, 0, 0, 1, 1]

set_option maxRecDepth 4000 in
theorem replies_unless_refused_pair :
    asked.unrefused (.pair true "A1") turns ∧
      (asked.run (.pair true "A1") turns).result? 1 = some (.ok (.scalar (.bool true))) ∧
      ∃ least, ∀ depth, least ≤ depth →
        ((fresh (Engine.nesting (.pair true "A1") depth)).reply (.cell Workbook.pairFormula)).1 =
          .ok (.scalar (.bool true)) := by
  have hschedule : asked.unrefused (.pair true "A1") turns := by decide +kernel
  have hresult : (asked.run (.pair true "A1") turns).result? 1 =
      some (.ok (.scalar (.bool true))) := by decide +kernel
  have hreached := (reached_ofQueries (.pair true "A1") {} (fun s i => ¬ s.refused i)
    [.cell Workbook.pairFormula, .cell Workbook.pairFormula]).run_unrefused hschedule
  have hreplies := (replies_unless_refused rfl (circleFree_firstCell rfl rfl) [] hreached).1
  obtain hdeep | hreply := hreplies 1 (.cell Workbook.pairFormula) _ rfl hresult
  · cases hdeep
  · exact ⟨hschedule, hresult, hreply⟩

/-! ## A circle that is none -/

set_option maxRecDepth 4000 in
theorem readFormula_true : Registry.builtins.readFormula "TRUE" = .ok (.literal (.bool true)) := by
  decide +kernel

/-- The formula `=TRUE` beside `=A1` is on no circle. -/
theorem circleFree_constant (cell : CellAddress) :
    (Engine.formulaPair "TRUE" "A1").CircleFree cell := by
  refine circleFree_of_rank CellAddress.col (fun chain c e h => ?_) cell
  obtain ⟨content, text, hread, htext, he⟩ := holding_eq_formula.mp h
  obtain ⟨-, -, rfl⟩ | ⟨-, hcol, rfl⟩ := Workbook.read_formulaPair hread htext
  · cases readFormula_true.symm.trans he
    trivial
  · cases readFormula_firstCell.symm.trans he
    rw [inquiry_firstCell, hcol]
    exact (Site.asksOnly_readArea (.ofCell (Nat.le_refl 1) (Nat.le_refl 1))).mono fun y hy =>
      Nat.lt_of_le_of_lt (Area.contains_iff.mp hy).2.2.2.2 (Nat.lt_succ_self 1)

/-- The first call reads both cells of a workbook that holds `=TRUE` and `=A1`, and the second one
computes the latter. -/
def crossing : Session :=
  ofQueries (.formulaPair "TRUE" "A1") {}
    [.area ⟨"Sheet1", 1, 1, 1, 2, .cells⟩, .cell Workbook.pairFormula]

/-- The second call waits for the first cell, and the first call goes on to the second cell before
the second call has given up its registration. -/
def crossed : List Nat := [0, 0, 1, 1, 1, 1, 0, 0, 0]

set_option maxRecDepth 4000 in
/-- A circle is met that is none: the wait that is followed is over. -/
theorem invented_circle :
    (∀ cell, (Engine.formulaPair "TRUE" "A1").CircleFree cell) ∧
      (crossing.run (.formulaPair "TRUE" "A1") crossed.dropLast).refused 0 = true ∧
      (crossing.run (.formulaPair "TRUE" "A1") crossed).result? 0 =
        some (.ok (.table ⟨1, 2, #[.bool true, .error .circular]⟩)) ∧
      ((fresh (.formulaPair "TRUE" "A1")).reply (.area ⟨"Sheet1", 1, 1, 1, 2, .cells⟩)).1 =
        .ok (.table ⟨1, 2, #[.bool true, .bool true]⟩) := by
  refine ⟨circleFree_constant, ?_, ?_, ?_⟩
  · decide +kernel
  · decide +kernel
  · decide +kernel

end Session

end Spreadsheet
