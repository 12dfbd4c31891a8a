-- SUMMARY: Calls that run at the same time on one evaluator, step by step.
import Spreadsheet.Evaluator

/-! # Sessions

Calls that run at the same time share the memory of an evaluator. A call claims a cell before it
computes the formula there, and resolves the claim when the computation is over. A call that asks
for a cell claimed by another one faces the claim: it registers as waiting for the owner, and goes
on once the claim is resolved. It does not wait if the owner is waiting for it, directly or
through other calls; the cell is circular then.

A step of a session is what one call does without another one coming in between. Claiming a cell,
checking and registering a wait, resolving a claim, waking up and giving up the registration are
five different steps.
-/

namespace Spreadsheet

open Std

inductive Claim.State where
  | pending
  /-- The computation of the cell is over, without a value if it failed. -/
  | resolved (value? : Option Value)

/-- The right of a call to compute the formula of a cell. -/
structure Claim where
  cell : CellAddress
  /-- The call that holds it. -/
  owner : Nat
  state : Claim.State := .pending

/-- A cell that a call asks for, the claim on it, and what goes on with its value. -/
structure Demand where
  cell : CellAddress
  claim : Nat
  resume : Value → Inquiry Value

/-- What goes on when the claim is resolved. Without a value the cell is asked for again. -/
def Demand.woken (d : Demand) : Option Value → Inquiry Value
  | some v => d.resume v
  | none => .ask d.cell d.resume

/-- What goes on with the result of a cell that was asked for. -/
def Inquiry.resumed (resume : Value → Inquiry Value) : Except Failure Value → Inquiry Value
  | .ok v => resume v
  | .error failure => .fail failure

/-- The inquiry of a call. It has failed if the call was refused. -/
def Inquiry.begun : Except Failure (Inquiry Value) → Inquiry Value
  | .ok q => q
  | .error failure => .fail failure

/-! ## What calls share -/

structure Shared where
  memory : Memory := {}
  /-- The claims ever made, from the first to the last. -/
  claims : Array Claim := #[]
  /-- The pending claims by their cells. -/
  claimed : TreeMap CellAddress Nat := ∅
  /-- The calls that are registered as waiting, with the call that each waits for. -/
  waits : TreeMap Nat Nat := ∅

namespace Shared

/-- Records a reading of the innermost of the cells under computation. -/
def note (shared : Shared) (reader : Option Demand) (r : Reading) : Shared :=
  match reader with
  | some d => { shared with memory := shared.memory.record d.cell r }
  | none => shared

/-- A call claims a cell. -/
def claim (shared : Shared) (owner : Nat) (cell : CellAddress) : Shared :=
  { shared with
    claims := shared.claims.push { cell, owner }
    claimed := shared.claimed.insert cell shared.claims.size }

/-- Resolves a claim. A value that is to be remembered takes the place of the claim, otherwise the
cell is free again. -/
def release (shared : Shared) (remember : Bool) (d : Demand) (value? : Option Value) : Shared :=
  let claims := shared.claims.modify d.claim fun c => { c with state := .resolved value? }
  match value?, remember with
  | some v, true =>
    { shared with
      claims
      memory := shared.memory.remember d.cell v
      claimed := shared.claimed.erase d.cell }
  | _, _ =>
    { shared with
      claims
      claimed :=
        if shared.claimed[d.cell]? = some d.claim then shared.claimed.erase d.cell
        else shared.claimed }

/-- Whether a call is the target, or waits for it directly or through others. At most `count`
waits are followed. -/
def leadsTo (shared : Shared) (target : Nat) : (count : Nat) → (call : Nat) → Bool
  | 0, call => call == target
  | count + 1, call =>
    call == target || (shared.waits[call]?).any (shared.leadsTo target count)

/-- Whether a call would wait for itself if it waited for the owner of a claim. -/
def circular (shared : Shared) (call owner : Nat) : Bool :=
  shared.leadsTo call shared.waits.size owner

end Shared

/-! ## Calls -/

/-- Where a call is. -/
inductive Stage where
  | working (q : Inquiry Value)
  /-- A cell was asked for that is claimed. -/
  | facing (d : Demand)
  /-- The call is registered, and waits for the claim to be resolved. -/
  | waiting (d : Demand)
  /-- The claim was resolved, and the call is registered still. -/
  | woken (d : Demand) (value? : Option Value)

structure Call where
  /-- The cells under computation with the claims on them, innermost first. -/
  frames : List Demand := []
  stage : Stage

namespace Call

/-- The cells under computation, innermost first. -/
def chain (call : Call) : List CellAddress := call.frames.map Demand.cell

/-- The call goes on with an inquiry. -/
def work (call : Call) (q : Inquiry Value) : Call := { call with stage := .working q }

/-- What the call has come to. -/
def result? (call : Call) : Option (Except Failure Value) :=
  match call.frames, call.stage with
  | [], .working (.done v) => some (.ok v)
  | [], .working (.fail failure) => some (.error failure)
  | _, _ => none

end Call

/-- What is found of a cell that a call asks for. -/
inductive Sighting where
  | result (r : Except Failure Value)
  | claimed (claim : Nat)
  /-- A formula that is still to be computed, and that no call has claimed. -/
  | free (text : String)

namespace Engine

/-- What is found of a cell, `chain` being the cells under computation, innermost first. -/
def sight (engine : Engine) (shared : Shared) (chain : List CellAddress) (cell : CellAddress) :
    Sighting :=
  if cell ∈ chain then .result (.ok (.error .circular))
  else
    match engine.source.workbook.read cell with
    | .error fault => .result (.error (.model fault))
    | .ok content =>
      match content.formula with
      | none => .result (.ok (.scalar content.value))
      | some text =>
        match shared.memory.values[cell]?, shared.claimed[cell]? with
        | some v, _ => .result (.ok v)
        | none, some claim => .claimed claim
        | none, none => .free text

/-- Begins to compute a cell below the cells of `chain`. -/
def start (engine : Engine) (chain : List CellAddress) (cell : CellAddress) (text : String)
    (memory : Memory) : Inquiry Value × Memory :=
  match (engine.formula text).run.run memory with
  | (.error failure, memory) => (.fail failure, memory)
  | (.ok e, memory) =>
    if engine.settings.maxDepth ≤ chain.length then
      (.fail (.tooDeep engine.settings.maxDepth), memory)
    else (engine.inquiry chain cell e, memory.forget cell)

/-- A call asks for a cell. If its formula is to be computed, the call claims it. -/
def demand (engine : Engine) (me : Nat) (shared : Shared) (call : Call) (cell : CellAddress)
    (resume : Value → Inquiry Value) : Shared × Call :=
  match engine.sight shared call.chain cell with
  | .result r => (shared, call.work (.resumed resume r))
  | .claimed claim => (shared, { call with stage := .facing ⟨cell, claim, resume⟩ })
  | .free text =>
    let (q, memory) := engine.start call.chain cell text shared.memory
    ({ shared.claim me cell with memory },
      { frames := ⟨cell, shared.claims.size, resume⟩ :: call.frames, stage := .working q })

/-- The computation of the innermost cell is over. -/
def finish (engine : Engine) (shared : Shared) (r : Except Failure Value) :
    (frames : List Demand) → Option (Shared × Call)
  | [] => none
  | d :: frames =>
    some (shared.release engine.settings.remember d r.toOption,
      { frames, stage := .working (.resumed d.resume r) })

/-- What a call does next, `me` being its number. Nothing if it is over, or if it waits for a
claim that is pending. -/
def advance (engine : Engine) (me : Nat) (shared : Shared) (call : Call) :
    Option (Shared × Call) :=
  match call.stage with
  | .working (.note r q) => some (shared.note call.frames.head? r, call.work q)
  | .working (.ask cell resume) => some (engine.demand me shared call cell resume)
  | .working (.done v) => engine.finish shared (.ok v) call.frames
  | .working (.fail failure) => engine.finish shared (.error failure) call.frames
  | .facing d =>
    match shared.claims[d.claim]? with
    | none => none
    | some claim =>
      if shared.circular me claim.owner then
        some (shared, call.work (d.resume (.error .circular)))
      else
        some ({ shared with waits := shared.waits.insert me claim.owner },
          { call with stage := .waiting d })
  | .waiting d =>
    match shared.claims[d.claim]? with
    | some ⟨_, _, .resolved value?⟩ => some (shared, { call with stage := .woken d value? })
    | _ => none
  | .woken d value? =>
    some ({ shared with waits := shared.waits.erase me }, call.work (d.woken value?))

end Engine

/-! ## Sessions -/

/-- The calls made on an evaluator, numbered from the first to the last, and what they share. -/
structure Session where
  shared : Shared := {}
  calls : Array Call := #[]

namespace Session

/-- Another call begins. -/
def join (s : Session) (start : Evaluation (Inquiry Value)) : Session :=
  let (result, memory) := start.run.run s.shared.memory
  { shared := { s.shared with memory }
    calls := s.calls.push { stage := .working (.begun result) } }

/-- The next step of a call, if it can take one. -/
def step? (engine : Engine) (s : Session) (i : Nat) : Option Session :=
  match s.calls[i]? with
  | none => none
  | some call =>
    match engine.advance i s.shared call with
    | none => none
    | some (shared, call) => some { shared, calls := s.calls.setIfInBounds i call }

/-- Calls take steps as the schedule tells. One that cannot is passed over. -/
def run (engine : Engine) (s : Session) (schedule : List Nat) : Session :=
  schedule.foldl (fun s i => (s.step? engine i).getD s) s

/-- What a call has come to. -/
def result? (s : Session) (i : Nat) : Option (Except Failure Value) :=
  (s.calls[i]?).bind Call.result?

end Session

end Spreadsheet
