-- SUMMARY: What a calculation counts is what it leaves remembered, and a second one finds it again.
import Mathlib.Data.List.Forall2
import Spreadsheet.Calculation
import Spreadsheet.Proofs.Depth
import Spreadsheet.Proofs.Failures
import Spreadsheet.Proofs.Store

/-!
# Calculations

A calculation asks for the value of each formula cell, one after the other, on one memory. Each of
these computations may compute other formulas on the way and remember their values, and may fail
half way. Whatever it does, what is remembered stays, so the values that were counted are there in
the end. A cell that is remembered is not computed again.
-/

namespace Spreadsheet

open Evaluation

/-! ## Counting -/

namespace Statistics

/-- The reply is an error or has one in it. -/
def isError : Except Failure Value → Bool
  | .ok v => v.firstError?.isSome
  | .error _ => false

/-- The first error of the reply is that of a circular reference. -/
def isCircular : Except Failure Value → Bool
  | .ok v => v.firstError? = some .circular
  | .error _ => false

/-- Counts a reply. -/
def add (stats : Statistics) : Except Failure Value → Statistics
  | .ok v => stats.addValue v
  | .error _ => stats.addFailure

/-- The replies of each kind, counted. -/
def ofReplies (replies : List (Except Failure Value)) : Statistics where
  formulas := replies.length
  calculated := replies.countP Except.isOk
  errors := replies.countP isError
  circular := replies.countP isCircular
  failures := replies.countP fun r => !r.isOk

theorem add_eq (stats : Statistics) (r : Except Failure Value) :
    stats.add r = { stats with
      calculated := stats.calculated + r.isOk.toNat
      errors := stats.errors + (isError r).toNat
      circular := stats.circular + (isCircular r).toNat
      failures := stats.failures + (!r.isOk).toNat } := by
  cases r with
  | error failure => rfl
  | ok v =>
      simp only [add, addValue, isError, isCircular]
      split
      · rename_i h
        simp [h, Except.isOk, Except.toBool]
      · rename_i h
        simp [h, Except.isOk, Except.toBool]
      · rename_i e hne h
        simp [h, Except.isOk, Except.toBool, show e ≠ .circular from hne]

theorem foldl_add (replies : List (Except Failure Value)) (stats : Statistics) :
    replies.foldl add stats = { stats with
      calculated := stats.calculated + replies.countP Except.isOk
      errors := stats.errors + replies.countP isError
      circular := stats.circular + replies.countP isCircular
      failures := stats.failures + replies.countP fun r => !r.isOk } := by
  induction replies generalizing stats with
  | nil => rfl
  | cons r replies ih =>
      have hcount (p : Except Failure Value → Bool) (n : Nat) :
          n + (p r).toNat + replies.countP p = n + (r :: replies).countP p := by
        rw [List.countP_cons, Nat.add_assoc, Nat.add_comm (replies.countP p)]
        cases p r <;> rfl
      rw [List.foldl_cons, ih, add_eq]
      simp only [hcount Except.isOk, hcount isError, hcount isCircular, hcount fun r => !r.isOk]

/-- Every reply is a value or a failure, every circle is an error, and every error is a value. -/
theorem ofReplies_le (replies : List (Except Failure Value)) :
    let stats := ofReplies replies
    stats.formulas = stats.calculated + stats.failures ∧ stats.circular ≤ stats.errors ∧
      stats.errors ≤ stats.calculated := by
  refine ⟨?_, ?_, ?_⟩
  · have hlength := List.length_eq_countP_add_countP Except.isOk (l := replies)
    simpa [ofReplies] using hlength
  · refine List.countP_mono_left fun r _ h => ?_
    cases r with
    | error failure => cases h
    | ok v => simp_all [isCircular, isError]
  · refine List.countP_mono_left fun r _ h => ?_
    cases r with
    | error failure => cases h
    | ok v => rfl

end Statistics

/-! ## Failures that are counted -/

/-- The failure is another one than that a function gave up, which ends a calculation. -/
def Failure.Ordinary (failure : Failure) : Prop := failure ≠ .aborted

namespace Engine

variable {engine : Engine}

/-- Nothing gives up where no function does. -/
theorem fulfils_unaborted (hregistry : engine.registry.GivesUp fun _ => False) :
    engine.Fulfils { fails := Failure.Ordinary } where
  tooDeep := nofun
  settled c r _ hr := by
    unfold holding at hr
    split at hr
    · cases hr
      exact nofun
    · split at hr
      · cases hr
        trivial
      · split at hr
        · rename_i failure hfailure
          cases hr
          refine (?_ : Failure.Ordinary failure)
          exact Registry.of_readFormula (fun _ => nofun) (fun _ _ _ _ => nofun) hfailure
        · cases hr
  formula chain c e _ _ _ := by
    have hvalue : (engine.inquiry chain c e).FailsOnly Failure.Ordinary :=
      Formula.Expr.failsOnly_value (fun _ _ _ _ => nofun)
        (fun f hf habort => (hregistry f hf habort).elim) e
    refine hvalue.mono ⟨fun _ _ => trivial, fun _ _ => ⟨trivial, trivial⟩, fun _ _ _ => trivial,
      fun _ h => h⟩ fun _ _ => trivial

end Engine

/-! ## The cells of a calculation -/

namespace Workbook

theorem exists_holds {book : Workbook} (hbook : book.Built) : ∃ ws, book.Holds ws := by
  induction hbook with
  | empty => exact ⟨[], holds_empty⟩
  | new => exact ⟨[], holds_new⟩
  | addSheet _ h ih => exact ih.imp fun _ hws => hws.addSheet h
  | write _ h ih =>
      obtain ⟨ws, hws⟩ := ih
      exact ⟨_, hws.write (w := ⟨_, _⟩) h⟩
  | @defineName book _ name refersTo _ h ih =>
      obtain ⟨ws, hws⟩ := ih
      have hcall : book.called (.defineName name refersTo) = .ok _ := h
      exact ⟨_, hws.called hcall⟩
  | @removeName book name _ ih =>
      obtain ⟨ws, hws⟩ := ih
      have hcall : book.called (.removeName name) = .ok _ := rfl
      exact ⟨_, hws.called hcall⟩

end Workbook

/-- The address is spelled as the source spells it, and the cell holds a formula. -/
structure Source.Lists (source : Source) (cell : CellAddress) : Prop where
  canonical : source.canonical cell = .ok cell
  formula : source.workbook.HasFormula cell

/-- The formula cells of a workbook are listed by the names of their sheets. -/
theorem Source.lists_formulaCells {source : Source} (hbook : source.workbook.Built)
    {cell : CellAddress} (hcell : cell ∈ source.workbook.formulaCells) : source.Lists cell := by
  obtain ⟨ws, hws⟩ := Workbook.exists_holds hbook
  obtain ⟨hstores, content, hread, hformula⟩ := hws.formulas.mp hcell
  obtain ⟨text, htext⟩ := Option.isSome_iff_exists.mp hformula
  refine ⟨canonical_self hread ?_, content, text, hread, htext⟩
  unfold Spells sheetName?
  split
  · obtain ⟨sheet, hsheet, -⟩ := Option.map_eq_some_iff.mp hstores
    rw [if_pos]
    exact Option.isSome_iff_exists.mpr ⟨sheet, hsheet⟩
  · exact hstores

namespace Evaluator

variable {ev ev' : Evaluator} {cell : CellAddress} {v : Value}

theorem built_after (hm : ev.FormulasRead ev.memory) (hbook : ev.source.workbook.Built)
    (ops : List Operation) : (ev.after ops).source.workbook.Built := by
  refine after_induction (P := fun ev => ev.source.workbook.Built) ops hm hbook ?_
  intro before op events ev' _ hbook hstep _
  cases hstep with
  | idle => exact hbook
  | answered _ _ => exact hbook
  | written _ hwrite _ => exact hbook.write hwrite
  | forgotten => exact hbook

/-! ## One cell -/

theorem evaluate_ne_aborted (hm : ev.FormulasRead ev.memory)
    (hregistry : ev.registry.GivesUp fun _ => False) (cell : CellAddress) :
    (ev.evaluate cell).1 ≠ .error .aborted := by
  intro haborted
  cases hcell : ev.source.canonical cell with
  | error fault =>
      have hinquiry : (Query.cell cell).inquiry ev.toEngine = .error (.model fault) := by
        simp only [Query.inquiry, hcell]
        rfl
      obtain ⟨_, hreply, -⟩ := reply_error hm hinquiry
      cases (congrArg Prod.fst hreply).symm.trans haborted
  | ok c =>
      obtain ⟨-, houtcome⟩ := evaluate_fulfils (Engine.fulfils_unaborted hregistry) hm
        (fun _ _ _ _ => trivial) hcell trivial
      rw [haborted] at houtcome
      exact houtcome rfl

/-- A listed cell that is given a value is remembered with it. -/
theorem remembered_of_evaluate (hm : ev.FormulasRead ev.memory)
    (hremember : ev.settings.remember = true) (hcell : ev.source.Lists cell)
    (hv : (ev.evaluate cell).1 = .ok v) : (ev.evaluate cell).2.memory.values[cell]? = some v := by
  have hinquiry : (Query.cell cell).inquiry ev.toEngine = .ok (.ask cell .done) :=
    Query.inquiry_cell hcell.canonical
  obtain ⟨_, s, m', log, hreply, hruns, -, -⟩ := reply_runs hm hinquiry
  change ev.evaluate cell = _ at hreply
  rw [hreply] at hv ⊢
  cases hv
  obtain ⟨content, text, hread, htext⟩ := hcell.formula
  generalize ev.settings.maxDepth = depth at hruns
  cases hruns with
  | asked hvisit hdone =>
      cases hdone
      cases hvisit with
      | circle hmem => cases hmem
      | settled _ hholding =>
          obtain ⟨content', hread', hnone, -⟩ := Engine.read_of_result hholding
          cases hread.symm.trans hread'
          cases htext.symm.trans hnone
      | remembered _ hv => exact hv
      | computed _ _ _ _ => rw [Memory.values_keep, if_pos ⟨hremember, rfl⟩]

/-- A listed cell that is remembered is found, and nothing else happens. -/
theorem evaluate_of_remembered (hcell : ev.source.Lists cell)
    (hv : ev.memory.values[cell]? = some v) : ev.evaluate cell = (.ok v, ev) := by
  obtain ⟨content, text, hread, htext⟩ := hcell.formula
  have hfind : (ev.find [] cell).on ev.memory = (.ok (.value v), ev.memory) := by
    unfold Engine.find
    rw [if_neg List.not_mem_nil, hread]
    refine (on_bind_ok (a := content) rfl).trans ?_
    simp only [htext, on_bind_ok (on_get _), hv]
    rfl
  have hvalue : (ev.cellValue ev.settings.maxDepth [] cell).on ev.memory = (.ok v, ev.memory) := by
    cases ev.settings.maxDepth <;> exact on_bind_ok hfind
  unfold evaluate
  rw [run_eq, hcell.canonical]
  have hon : ((liftFault (.ok cell : Except Fault CellAddress)) >>= fun cell =>
      ev.cellValue ev.settings.maxDepth [] cell).on ev.memory = (.ok v, ev.memory) :=
    (on_bind_ok (a := cell) rfl).trans hvalue
  rw [hon]

/-! ## One cell after the other -/

theorem formulasRead_reply (hm : ev.FormulasRead ev.memory) (query : Query) :
    (ev.reply query).2.FormulasRead (ev.reply query).2.memory :=
  (step_apply hm (.ask query)).2

theorem values_reply (hm : ev.FormulasRead ev.memory) (query : Query)
    (hv : ev.memory.values[cell]? = some v) :
    (ev.reply query).2.memory.values[cell]? = some v := by
  cases hq : query.inquiry ev.toEngine with
  | error failure =>
      obtain ⟨_, hreply, -, -⟩ := reply_error hm hq
      rw [hreply]
      exact hv
  | ok q =>
      obtain ⟨_, _, _, _, hreply, hruns, -, -⟩ := reply_runs hm hq
      rw [hreply]
      exact hruns.values_grow hv

/-- What is remembered stays, whatever is asked for. -/
theorem values_queried (hm : ev.FormulasRead ev.memory) (queries : List Query)
    (hv : ev.memory.values[cell]? = some v) :
    (ev.queried queries).memory.values[cell]? = some v := by
  induction queries generalizing ev with
  | nil => exact hv
  | cons query queries ih => exact ih (formulasRead_reply hm query) (values_reply hm query hv)

/-- The values that listed cells were given one after the other are all remembered in the end. -/
theorem remembered_of_replies (hm : ev.FormulasRead ev.memory)
    (hremember : ev.settings.remember = true) {cells : List CellAddress}
    (hcells : ∀ cell ∈ cells, ev.source.Lists cell) :
    List.Forall₂ (fun cell r => ∀ v, r = .ok v →
      (ev.queried (cells.map .cell)).memory.values[cell]? = some v) cells
      (ev.replies (cells.map .cell)) := by
  induction cells generalizing ev with
  | nil => exact .nil
  | cons cell cells ih =>
      obtain ⟨hcell, hcells⟩ := List.forall_mem_cons.mp hcells
      have hm' := formulasRead_reply hm (.cell cell)
      have hengine := toEngine_reply ev (.cell cell)
      have hrest := @ih (ev.reply (.cell cell)).2 hm'
      refine .cons (fun v hv => ?_) (hrest ?_ ?_)
      · exact values_queried hm' _ (remembered_of_evaluate hm hremember hcell hv)
      · rw [hengine]
        exact hremember
      · rw [hengine]
        exact hcells

/-- Where listed cells are remembered, they are found and nothing else happens. -/
theorem replies_of_remembered {cells : List CellAddress} {replies : List (Except Failure Value)}
    (hcells : ∀ cell ∈ cells, ev.source.Lists cell)
    (hreplies : List.Forall₂ (fun cell r => ∃ v, r = .ok v ∧ ev.memory.values[cell]? = some v)
      cells replies) :
    ev.replies (cells.map .cell) = replies ∧ ev.queried (cells.map .cell) = ev := by
  induction hreplies with
  | nil => exact ⟨rfl, rfl⟩
  | @cons cell _ cells replies hcell hrest ih =>
      obtain ⟨v, rfl, hv⟩ := hcell
      obtain ⟨hlists, hcells⟩ := List.forall_mem_cons.mp hcells
      have hreply : ev.reply (.cell cell) = (.ok v, ev) := evaluate_of_remembered hlists hv
      obtain ⟨hreplies, hqueried⟩ := ih hcells
      constructor
      · rw [List.map_cons, Evaluator.replies, hreply, hreplies]
      · rw [List.map_cons]
        change (ev.reply (.cell cell)).2.queried _ = ev
        rw [hreply, hqueried]

theorem aborted_notMem_replies (hm : ev.FormulasRead ev.memory)
    (hregistry : ev.registry.GivesUp fun _ => False) (cells : List CellAddress) :
    .error .aborted ∉ ev.replies (cells.map .cell) := by
  induction cells generalizing ev with
  | nil => exact List.not_mem_nil
  | cons cell cells ih =>
      refine List.not_mem_cons_of_ne_of_not_mem ?_ (ih (formulasRead_reply hm (.cell cell)) ?_)
      · exact (evaluate_ne_aborted hm hregistry cell).symm
      · rw [toEngine_reply]
        exact hregistry

/-- A calculation that does not stop counts the replies. -/
theorem calculateCells_eq {cells : List CellAddress}
    (h : .error .aborted ∉ ev.replies (cells.map .cell)) (stats : Statistics) :
    calculateCells false cells stats ev =
      (.ok ((ev.replies (cells.map .cell)).foldl Statistics.add stats),
        ev.queried (cells.map .cell)) := by
  induction cells generalizing ev stats with
  | nil => rfl
  | cons cell cells ih =>
      obtain ⟨hcell, hcells⟩ := List.ne_and_not_mem_of_not_mem_cons h
      have hrest (stats : Statistics) := @ih (ev.evaluate cell).2 hcells stats
      change calculateCells false (cell :: cells) stats ev =
        (.ok (((ev.evaluate cell).1 :: (ev.evaluate cell).2.replies (cells.map .cell)).foldl
          Statistics.add stats), (ev.evaluate cell).2.queried (cells.map .cell))
      change _ ≠ (ev.evaluate cell).1 at hcell
      rw [List.foldl_cons, ← hrest, calculateCells]
      split
      · rename_i v ev' hreply
        rw [hreply]
        rfl
      · rename_i failure ev' hreply
        rw [hreply] at hcell ⊢
        have hordinary : failure ≠ .aborted := fun h => hcell (h ▸ rfl)
        simp [hordinary, Statistics.add]

theorem length_replies (ev : Evaluator) (queries : List Query) :
    (ev.replies queries).length = queries.length := by
  induction queries generalizing ev with
  | nil => rfl
  | cons query queries ih => exact congrArg Nat.succ (ih _)

/-- A calculation counts the replies of all formula cells. -/
theorem calculate_eq {cells : List CellAddress} (hcells : ev.source.workbook.formulaCells = cells)
    (h : .error .aborted ∉ ev.replies (cells.map .cell)) :
    ev.calculate =
      (.ok (.ofReplies (ev.replies (cells.map .cell))), ev.queried (cells.map .cell)) := by
  unfold calculate
  rw [hcells]
  dsimp only
  rw [calculateCells_eq h, Statistics.foldl_add]
  simp only [Statistics.ofReplies, length_replies, List.length_map, Nat.zero_add]

/-- **A calculation counts what it leaves remembered.** Take an engine that remembers values, over
a workbook and with functions that do not give up, and any operations on an evaluator of it, failed
ones included. A calculation that does not stop at failures then comes to statistics, and they count
the replies of the formula cells, asked for one after the other: each gave a value or failed, and
the circles are among the errors and the errors among the values. Every value that was counted is
remembered for its cell in the end, and what was remembered before still is, with the same value.
If nothing failed, the next calculation comes to the same statistics and leaves the evaluator as it
is. -/
theorem calculate_remembers {engine : Engine} (hbook : engine.source.workbook.Built)
    (hregistry : engine.registry.GivesUp fun _ => False)
    (hremember : engine.settings.remember = true) (ops : List Operation) :
    let ev := (fresh engine).after ops
    let cells := ev.source.workbook.formulaCells
    let replies := ev.replies (cells.map .cell)
    ∃ stats ev', ev.calculate = (.ok stats, ev') ∧ stats = .ofReplies replies ∧
      stats.formulas = cells.length ∧ stats.formulas = stats.calculated + stats.failures ∧
      stats.circular ≤ stats.errors ∧ stats.errors ≤ stats.calculated ∧
      List.Forall₂ (fun cell r => ∀ v, r = .ok v → ev'.remembered? cell = some v) cells replies ∧
      (∀ (c : CellAddress) (v : Value),
        ev.memory.values[c]? = some v → ev'.memory.values[c]? = some v) ∧
      (stats.failures = 0 → ev'.calculate = (.ok stats, ev')) := by
  intro ev cells replies
  have hm : ev.FormulasRead ev.memory := formulasRead_after Engine.formulasRead_empty ops
  have hcells (cell : CellAddress) (hcell : cell ∈ cells) : ev.source.Lists cell :=
    Source.lists_formulaCells (built_after Engine.formulasRead_empty hbook ops) hcell
  have hremember' : ev.settings.remember = true := by
    rw [show ev.settings = engine.settings from settings_after Engine.formulasRead_empty ops]
    exact hremember
  have hregistry' : ev.registry.GivesUp fun _ => False := by
    rw [show ev.registry = engine.registry from registry_after Engine.formulasRead_empty ops]
    exact hregistry
  -- every reply with a value is remembered, and the first pass changes nothing in the engine
  have hremembered := remembered_of_replies hm hremember' hcells
  have hlength : replies.length = cells.length := hremembered.length_eq.symm
  have hengine := toEngine_queried ev (cells.map .cell)
  have hcells' (cell : CellAddress) (hcell : cell ∈ cells) :
      (ev.queried (cells.map .cell)).source.Lists cell := by
    rw [hengine]
    exact hcells cell hcell
  have haborted : .error .aborted ∉ replies := aborted_notMem_replies hm hregistry' cells
  obtain ⟨htotal, hcircular, herrors⟩ := Statistics.ofReplies_le replies
  refine ⟨_, _, calculate_eq rfl haborted, rfl, hlength, htotal, hcircular, herrors, ?_,
    fun c v => values_queried hm _, fun hfailures => ?_⟩
  · refine ((List.forall₂_and_left _ _).mpr ⟨hcells', hremembered⟩).imp ?_
    intro cell r ⟨hcell, hr⟩ v hv
    rw [remembered?, hcell.canonical]
    exact hr v hv
  · -- if nothing failed, all values are remembered, so the second pass only finds them
    have hok : List.Forall₂ (fun cell r => ∃ v, r = .ok v ∧
        (ev.queried (cells.map .cell)).memory.values[cell]? = some v) cells replies := by
      have hvalue : ∀ r ∈ replies, r.isOk := by
        simpa [Statistics.ofReplies, List.countP_eq_zero] using hfailures
      refine ((List.forall₂_and_left _ _).mpr ⟨hvalue, hremembered.flip⟩).flip.imp ?_
      intro cell r ⟨hr, hv⟩
      cases r with
      | ok v => exact ⟨v, rfl, hv v rfl⟩
      | error failure => cases hr
    obtain ⟨hreplies, hqueried⟩ := replies_of_remembered hcells' hok
    have hlisted : (ev.queried (cells.map .cell)).source.workbook.formulaCells = cells := by
      rw [hengine]
    have hagain := calculate_eq hlisted (hreplies.symm ▸ haborted)
    rwa [hreplies, hqueried] at hagain

set_option maxRecDepth 4000 in
/-- A formula that reads a cell that was written is counted and remembered with the new value. -/
theorem calculate_remembers_pair :
    let engine := Engine.pair true "A1"
    let ev := (fresh engine).after [.setValue Workbook.pairValue (.bool false)]
    (engine.source.workbook.Built ∧ engine.registry.GivesUp (fun _ => False) ∧
      engine.settings.remember = true) ∧
      ∃ ev', ev.calculate = (.ok { formulas := 1, calculated := 1 }, ev') ∧
        ev'.remembered? Workbook.pairFormula = some (.scalar (.bool false)) := by
  intro engine ev
  have hbook : engine.source.workbook.Built := Workbook.built_pair true "A1"
  have hregistry : engine.registry.GivesUp fun _ => False := Registry.builtins_givesUp _
  refine ⟨⟨hbook, hregistry, rfl⟩, ?_⟩
  have hcells : ev.source.workbook.formulaCells = [Workbook.pairFormula] := by decide
  have hreplies : ev.replies [.cell Workbook.pairFormula] = [.ok (.scalar (.bool false))] := by decide +kernel
  obtain ⟨stats, ev', hcalculate, hstats, -, -, -, -, hremembered, -⟩ :=
    calculate_remembers hbook hregistry rfl [.setValue Workbook.pairValue (.bool false)]
  change stats = .ofReplies (ev.replies (ev.source.workbook.formulaCells.map .cell)) at hstats
  change List.Forall₂ _ ev.source.workbook.formulaCells
    (ev.replies (ev.source.workbook.formulaCells.map .cell)) at hremembered
  rw [hcells, List.map_singleton, hreplies] at hstats hremembered
  obtain rfl : stats = { formulas := 1, calculated := 1 } := hstats.trans rfl
  cases hremembered with
  | cons hvalue _ => exact ⟨ev', hcalculate, hvalue _ rfl⟩

end Evaluator

end Spreadsheet
