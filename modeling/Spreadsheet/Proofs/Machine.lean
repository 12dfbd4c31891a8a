-- SUMMARY: A call of an evaluator as steps of a machine with a stack of cells under computation.
import Mathlib.Data.Finset.Basic
import Mathlib.Logic.Relation
import Spreadsheet.Proofs.Depth

/-!
# The machine of a call

A call keeps a stack of the cells under computation and a set of the same cells, enters a cell
before its formula is computed and leaves it afterwards, whether the formula came to a value or
failed. Here each of these is a step, what waits for an answer is a list, and nothing counts how
deep the stack may still grow: the limit is compared with its height. The steps of a call lead to
the result that the evaluator gives and to the memory that it keeps.
-/

namespace Spreadsheet

open Std Evaluation Relation

/-- What a call does next. -/
inductive Control where
  /-- The value of the cell is wanted. -/
  | visit (cell : CellAddress)
  | inquire (q : Inquiry Value)
  /-- What was wanted last has come to a result. -/
  | answer (r : Except Failure Value)

/-- What waits for an answer. -/
inductive Waiting where
  /-- The formula of the cell is being computed. -/
  | formula (cell : CellAddress)
  /-- An inquiry goes on with the value of the cell it asked for. -/
  | inquiry (resume : Value → Inquiry Value)

/-- A moment of a call. -/
structure Moment where
  /-- The cells under computation, innermost first. -/
  stack : List CellAddress := []
  inProgress : Finset CellAddress := ∅
  /-- What waits for answers, innermost first. -/
  waiting : List Waiting := []
  memory : Memory
  control : Control

namespace Moment

/-- The computation of the cell begins. -/
def enter (s : Moment) (cell : CellAddress) : Moment :=
  { s with stack := cell :: s.stack, inProgress := insert cell s.inProgress }

/-- The computation of the cell is over. -/
def leave (s : Moment) (cell : CellAddress) : Moment :=
  { s with stack := s.stack.tail, inProgress := s.inProgress.erase cell }

/-- The moment at which a call begins with an inquiry. -/
def start (q : Inquiry Value) (m : Memory) : Moment := { memory := m, control := .inquire q }

/-- The moment at which the evaluation that was wanted is over. -/
def answered (s : Moment) (result : Except Failure Value × Memory) : Moment :=
  { s with memory := result.2, control := .answer result.1 }

end Moment

namespace Engine

/-- The formula of a cell begins to be computed, the cell being entered. -/
def compute (engine : Engine) (s : Moment) (cell : CellAddress) (e : Formula.Expr) (m : Memory) :
    Moment :=
  { s.enter cell with
    waiting := .formula cell :: s.waiting
    memory := m.forget cell
    control := .inquire (engine.inquiry s.stack cell e) }

/-- What happens when the value of a cell is wanted: a cell in progress is circular, and a formula
that has no value yet is computed unless the stack is full. -/
def visit (engine : Engine) (s : Moment) (cell : CellAddress) : Moment :=
  if cell ∈ s.inProgress then s.answered (.ok (.error .circular), s.memory)
  else
    match (engine.find [] cell).on s.memory with
    | (.error failure, m) => s.answered (.error failure, m)
    | (.ok (.value v), m) => s.answered (.ok v, m)
    | (.ok (.formula e), m) =>
      if engine.settings.maxDepth ≤ s.stack.length then
        s.answered (.error (.tooDeep engine.settings.maxDepth), m)
      else engine.compute s cell e m

/-- The next moment of a call, unless the call is over. -/
def next? (engine : Engine) (s : Moment) : Option Moment :=
  match s.control with
  | .visit cell => some (engine.visit s cell)
  | .inquire (.done v) => some (s.answered (.ok v, s.memory))
  | .inquire (.fail failure) => some (s.answered (.error failure, s.memory))
  | .inquire (.note r q) =>
    some { s with memory := s.memory.noted s.stack.head? r, control := .inquire q }
  | .inquire (.ask cell resume) =>
    some { s with waiting := .inquiry resume :: s.waiting, control := .visit cell }
  | .answer r =>
    match s.waiting, r with
    | [], _ => none
    | .inquiry resume :: waiting, .ok v => some { s with waiting, control := .inquire (resume v) }
    | .inquiry _ :: waiting, .error _ => some { s with waiting }
    | .formula cell :: waiting, .ok v =>
      some { s.leave cell with
        waiting, memory := s.memory.keep engine.settings.remember cell v }
    | .formula cell :: waiting, .error _ => some { s.leave cell with waiting }

/-- From the first moment a call comes to the second. -/
def Reaches (engine : Engine) : Moment → Moment → Prop :=
  ReflTransGen fun s t => engine.next? s = some t

/-- From the first moment a call comes to the second, and until then something waits for an answer
in front of `waiting`, or the value of a cell is wanted. -/
def Inside (engine : Engine) (waiting : List Waiting) : Moment → Moment → Prop :=
  ReflTransGen fun s t => engine.next? s = some t ∧ waiting <:+ s.waiting ∧
    (s.waiting = waiting → ∃ cell, s.control = .visit cell)

/-- From the first moment a call comes to the second, and until then `waiting` waits. -/
def Above (engine : Engine) (waiting : List Waiting) : Moment → Moment → Prop :=
  ReflTransGen fun s t => engine.next? s = some t ∧ waiting <:+ s.waiting

end Engine

variable {engine : Engine} {waiting : List Waiting} {w : Waiting} {s t : Moment}

theorem Engine.Inside.above (h : engine.Inside waiting s t) : engine.Above waiting s t :=
  ReflTransGen.mono (fun _ _ ⟨hstep, hsuffix, _⟩ => ⟨hstep, hsuffix⟩) _ _ h

theorem Engine.Above.reaches (h : engine.Above waiting s t) : engine.Reaches s t :=
  ReflTransGen.mono (fun _ _ ⟨hstep, _⟩ => hstep) _ _ h

/-- What happens above one more that waits happens within the evaluation that made it wait. -/
theorem Engine.Above.inside (h : engine.Above (w :: waiting) s t) :
    engine.Inside waiting s t := by
  refine ReflTransGen.mono (fun s _ ⟨hstep, hsuffix⟩ =>
    ⟨hstep, (List.suffix_cons w waiting).trans hsuffix, fun heq => ?_⟩) _ _ h
  have hlength := hsuffix.length_le
  rw [heq, List.length_cons] at hlength
  exact absurd hlength (Nat.not_succ_le_self _)

/-! ## What a step can do -/

/-- The moments that a visit can lead to. -/
inductive Engine.Visited (engine : Engine) (s : Moment) (cell : CellAddress) : Moment → Prop where
  /-- The cell is in progress. -/
  | circle (hmem : cell ∈ s.inProgress) :
      Visited engine s cell (s.answered (.ok (.error .circular), s.memory))
  /-- There is nothing to compute. -/
  | settled {r : Except Failure Value} {m : Memory} (hmem : cell ∉ s.inProgress)
      (hfind : (engine.find [] cell).on s.memory = (r.map .value, m))
      (hshallow : ∀ failure, r = .error failure → failure.Shallow) :
      Visited engine s cell (s.answered (r, m))
  /-- The stack is full. -/
  | full {e : Formula.Expr} {m : Memory} (hmem : cell ∉ s.inProgress)
      (hfind : (engine.find [] cell).on s.memory = (.ok (.formula e), m))
      (hformula : engine.source.workbook.HasFormula cell)
      (hfull : engine.settings.maxDepth ≤ s.stack.length) :
      Visited engine s cell (s.answered (.error (.tooDeep engine.settings.maxDepth), m))
  /-- The formula of the cell begins to be computed. -/
  | entered {e : Formula.Expr} {m : Memory} (hmem : cell ∉ s.inProgress)
      (hfind : (engine.find [] cell).on s.memory = (.ok (.formula e), m))
      (hformula : engine.source.workbook.HasFormula cell)
      (hfree : s.stack.length < engine.settings.maxDepth) :
      Visited engine s cell (engine.compute s cell e m)

theorem Engine.visited (engine : Engine) (s : Moment) (cell : CellAddress) :
    engine.Visited s cell (engine.visit s cell) := by
  unfold visit
  split
  · rename_i hmem
    exact .circle hmem
  rename_i hmem
  obtain ⟨r, m, hfind, hshallow⟩ | ⟨hformula, e, m, hfind⟩ := find_cases cell s.memory
  · rw [hfind]
    cases r with
    | error failure => exact .settled hmem hfind hshallow
    | ok v => exact .settled hmem hfind hshallow
  · rw [hfind]
    dsimp only
    split
    · rename_i hfull
      exact .full hmem hfind hformula hfull
    · rename_i hfree
      exact .entered hmem hfind hformula (Nat.lt_of_not_le hfree)

/-- The moments that can follow each other. -/
inductive Engine.Step (engine : Engine) (s : Moment) : Moment → Prop where
  | visited {cell : CellAddress} {t : Moment} (hcontrol : s.control = .visit cell)
      (h : engine.Visited s cell t) : Step engine s t
  | done {v : Value} (hcontrol : s.control = .inquire (.done v)) :
      Step engine s (s.answered (.ok v, s.memory))
  | failed {failure : Failure} (hcontrol : s.control = .inquire (.fail failure)) :
      Step engine s (s.answered (.error failure, s.memory))
  | noted {r : Reading} {q : Inquiry Value} (hcontrol : s.control = .inquire (.note r q)) :
      Step engine s { s with memory := s.memory.noted s.stack.head? r, control := .inquire q }
  | asked {cell : CellAddress} {resume : Value → Inquiry Value}
      (hcontrol : s.control = .inquire (.ask cell resume)) :
      Step engine s { s with waiting := .inquiry resume :: s.waiting, control := .visit cell }
  | resumed {v : Value} {resume : Value → Inquiry Value} {waiting : List Waiting}
      (hcontrol : s.control = .answer (.ok v)) (hwaiting : s.waiting = .inquiry resume :: waiting) :
      Step engine s { s with waiting, control := .inquire (resume v) }
  /-- A failure is passed on. -/
  | passed {failure : Failure} {resume : Value → Inquiry Value} {waiting : List Waiting}
      (hcontrol : s.control = .answer (.error failure))
      (hwaiting : s.waiting = .inquiry resume :: waiting) : Step engine s { s with waiting }
  /-- The formula of a cell has come to a result. -/
  | left {cell : CellAddress} {waiting : List Waiting} {m : Memory}
      (hwaiting : s.waiting = .formula cell :: waiting) :
      Step engine s { s.leave cell with waiting, memory := m }

theorem Engine.step_of_next? (h : engine.next? s = some t) : engine.Step s t := by
  unfold next? at h
  split at h
  · rename_i cell hcontrol
    cases h
    exact .visited hcontrol (engine.visited s cell)
  · rename_i v hcontrol
    cases h
    exact .done hcontrol
  · rename_i failure hcontrol
    cases h
    exact .failed hcontrol
  · rename_i r q hcontrol
    cases h
    exact .noted hcontrol
  · rename_i cell resume hcontrol
    cases h
    exact .asked hcontrol
  · rename_i r hcontrol
    split at h
    · cases h
    · rename_i resume waiting v hwaiting
      cases h
      exact .resumed hcontrol hwaiting
    · rename_i resume waiting failure hwaiting
      cases h
      exact .passed hcontrol hwaiting
    · rename_i cell waiting v hwaiting
      cases h
      exact .left hwaiting
    · rename_i cell waiting failure hwaiting
      cases h
      exact .left hwaiting

/-! ## The machine and the evaluator -/

namespace Engine

variable {chain : List CellAddress} {cell : CellAddress} {m : Memory} {depth : Nat}

theorem find_of_notMem (h : cell ∉ chain) : engine.find chain cell = engine.find [] cell := by
  simp [find, h]

/-- Nothing needs to be computed for the cell. -/
theorem cellValue_on_value {r : Except Failure Value} {m' : Memory}
    (h : (engine.find chain cell).on m = (r.map .value, m')) :
    (engine.cellValue depth chain cell).on m = (r, m') := by
  cases r with
  | error failure => cases depth <;> exact on_bind_error h
  | ok v => cases depth <;> exact on_bind_ok h

theorem cellValue_on_circle (h : cell ∈ chain) :
    (engine.cellValue depth chain cell).on m = (.ok (.error .circular), m) := by
  refine cellValue_on_value ?_
  rw [find, if_pos h]
  rfl

/-- The formula of the cell is computed, and its value is remembered. -/
theorem cellValue_on_formula {e : Formula.Expr} {m' : Memory}
    (h : (engine.find chain cell).on m = (.ok (.formula e), m')) :
    (engine.cellValue (depth + 1) chain cell).on m =
      match ((engine.inquiry chain cell e).run (recordFor (some cell))
          (engine.cellValue depth (cell :: chain))).on (m'.forget cell) with
      | (.ok v, m) => (.ok v, m.keep engine.settings.remember cell v)
      | (.error failure, m) => (.error failure, m) := by
  rw [cellValue, on_bind_ok h]
  dsimp only
  rw [on_bind_ok (on_modify _ _), on_bind]
  unfold recordFor
  dsimp only
  split
  · rename_i v m'' hrun
    rw [hrun]
    unfold Memory.keep
    split <;> rfl
  · rename_i failure m'' hrun
    rw [hrun]

/-- If visits below the cells of the stack are answered, so are inquiries. -/
theorem above_inquire {answer : CellAddress → Evaluation Value}
    (hvisit : ∀ (s : Moment) (cell : CellAddress), s.control = .visit cell → s.stack = chain →
      s.inProgress = chain.toFinset →
      engine.Inside s.waiting s (s.answered ((answer cell).on s.memory)))
    {q : Inquiry Value} (hcontrol : s.control = .inquire q) (hstack : s.stack = chain)
    (hset : s.inProgress = chain.toFinset) :
    engine.Above s.waiting s (s.answered ((q.run (recordFor chain.head?) answer).on s.memory)) := by
  have hself := List.suffix_refl s.waiting
  -- by induction on the inquiry; what waits below it is never taken off the stack
  induction q generalizing s with
  | done v => exact .single ⟨by rw [next?, hcontrol]; rfl, hself⟩
  | fail failure => exact .single ⟨by rw [next?, hcontrol]; rfl, hself⟩
  | note r q ih =>
      let noted : Moment :=
        { s with memory := s.memory.noted s.stack.head? r, control := .inquire q }
      have hnoted : engine.Above s.waiting noted
          (s.answered ((q.run (recordFor chain.head?) answer).on noted.memory)) :=
        ih (s := noted) rfl hstack hset hself
      rw [Inquiry.run, on_bind_ok (recordFor_on chain.head? r s.memory), ← hstack]
      rw [← hstack] at hnoted
      exact .head ⟨by rw [next?, hcontrol], hself⟩ hnoted
  | ask cell resume ih =>
      let asked : Moment :=
        { s with waiting := .inquiry resume :: s.waiting, control := .visit cell }
      have hasked := (hvisit asked cell rfl hstack hset).above.inside.above
      refine .head ⟨by rw [next?, hcontrol], hself⟩ (ReflTransGen.trans hasked ?_)
      rw [Inquiry.run, on_bind]
      have hsuffix : s.waiting <:+ asked.waiting := List.suffix_cons _ _
      cases hanswer : (answer cell).on s.memory with
      | mk r m =>
          cases r with
          | error failure => exact .single ⟨rfl, hsuffix⟩
          | ok v =>
              let resumed : Moment := { s with memory := m, control := .inquire (resume v) }
              exact .head ⟨rfl, hsuffix⟩ (ih v (s := resumed) rfl hstack hset hself)

theorem inside_visit_step (hcontrol : s.control = .visit cell) (h : engine.visit s cell = t) :
    engine.Inside s.waiting s t :=
  .single ⟨by rw [next?, hcontrol]; exact congrArg some h, List.suffix_refl _,
    fun _ => ⟨cell, hcontrol⟩⟩

/-- A cell that is left is as if it had not been entered. -/
theorem next?_answered_compute {e : Formula.Expr} {m' : Memory} (hc : cell ∉ s.inProgress)
    (result : Except Failure Value × Memory) :
    engine.next? ((engine.compute s cell e m').answered result) =
      some (s.answered (match result with
        | (.ok v, m) => (.ok v, m.keep engine.settings.remember cell v)
        | (.error failure, m) => (.error failure, m))) := by
  have herase : (insert cell s.inProgress).erase cell = s.inProgress := Finset.erase_insert hc
  obtain ⟨r, m⟩ := result
  cases r <;>
    simp only [next?, compute, Moment.answered, Moment.enter, Moment.leave, herase, List.tail_cons]

/-- The machine answers a visit as the evaluator does, and leaves stack and set as it found them. -/
theorem inside_visit {depth : Nat} {s : Moment} {cell : CellAddress}
    (hcontrol : s.control = .visit cell) (hset : s.inProgress = s.stack.toFinset)
    (hdepth : s.stack.length + depth = engine.settings.maxDepth) :
    engine.Inside s.waiting s
      (s.answered ((engine.cellValue depth s.stack cell).on s.memory)) := by
  have hmem : cell ∈ s.inProgress ↔ cell ∈ s.stack := by rw [hset, List.mem_toFinset]
  have hvisited := engine.visited s cell
  generalize hvisit : engine.visit s cell = t at hvisited
  have hstep := inside_visit_step hcontrol hvisit
  cases hvisited with
  | circle hc =>
      rwa [cellValue_on_circle (hmem.mp hc)]
  | settled hc hfind _ =>
      rw [← find_of_notMem (fun h => hc (hmem.mpr h))] at hfind
      rwa [cellValue_on_value hfind]
  | full hc hfind _ hfull =>
      obtain rfl : depth = 0 := by omega
      rw [← find_of_notMem (fun h => hc (hmem.mpr h))] at hfind
      rw [cellValue, on_bind_ok hfind]
      exact hstep
  | @entered e m hc hfind _ hfree =>
      obtain ⟨depth, rfl⟩ := Nat.exists_eq_succ_of_ne_zero (by omega : depth ≠ 0)
      rw [← find_of_notMem (fun h => hc (hmem.mpr h))] at hfind
      rw [cellValue_on_formula hfind]
      have hset' : insert cell s.inProgress = (cell :: s.stack).toFinset := by
        rw [List.toFinset_cons, hset]
      -- by induction on the depth that is left, what the formula asks for is answered
      have hnested (s' : Moment) (cell' : CellAddress) (hcontrol' : s'.control = .visit cell')
          (hstack' : s'.stack = cell :: s.stack)
          (hset'' : s'.inProgress = (cell :: s.stack).toFinset) :
          engine.Inside s'.waiting s'
            (s'.answered ((engine.cellValue depth (cell :: s.stack) cell').on s'.memory)) := by
        have hdepth' : s'.stack.length + depth = engine.settings.maxDepth := by
          rw [hstack', List.length_cons]
          omega
        rw [← hstack'] at hset'' ⊢
        exact inside_visit hcontrol' hset'' hdepth'
      have hrun := above_inquire hnested (s := engine.compute s cell e m) rfl rfl hset'
      refine ReflTransGen.trans hstep (ReflTransGen.trans hrun.inside (.single ⟨?_, ?_, ?_⟩))
      · exact next?_answered_compute hc _
      · exact List.suffix_cons _ _
      · intro heq
        exact absurd (congrArg List.length heq) (Nat.succ_ne_self _)
termination_by depth

/-- A call comes to what the evaluator answers, and nothing is left on the stack. -/
theorem reaches_answered (q : Inquiry Value) (m : Memory) :
    engine.Reaches (.start q m) ((Moment.start q m).answered ((engine.answer q).on m)) := by
  have hvisit (s : Moment) (cell : CellAddress) (hcontrol : s.control = .visit cell)
      (hstack : s.stack = []) (hset : s.inProgress = [].toFinset) :
      engine.Inside s.waiting s
        (s.answered ((engine.cellValue engine.settings.maxDepth [] cell).on s.memory)) := by
    rw [← hstack] at hset ⊢
    refine inside_visit hcontrol hset ?_
    rw [hstack, List.length_nil, Nat.zero_add]
  exact (above_inquire hvisit (s := .start q m) rfl rfl rfl).reaches

end Engine

end Spreadsheet
