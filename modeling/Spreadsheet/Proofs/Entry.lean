-- SUMMARY: When cells on a circle have the same values wherever evaluation enters the circle.
import Spreadsheet.Proofs.Strict

/-!
# Entering circles

A cell that is asked for while it is under computation answers the marker of a circle, and
what others make of the marker is remembered as their value. So the values on a circle may
depend on the cell by which it is entered. They do not if no formula minds the marker: if it
comes to one and the same value whichever cells that lead to it are under computation. For
two cells that ask only for each other nothing less will do.
-/

namespace Spreadsheet

open Std Relation

namespace Inquiry

variable {α : Type} {allowed : CellAddress → Prop} {q : Inquiry α} {a : α}

/-- An inquiry meets the contract that fixes each answer, with what it then comes to. -/
theorem AsksOnly.meets {answer : CellAddress → Value} (hasks : q.AsksOnly allowed)
    (hq : q.evaluate (fun c => some (.ok (answer c))) = some (.ok a)) :
    q.Meets { asks := allowed, fits := fun c v => v = answer c } (· = a) := by
  induction q with
  | done b =>
      cases hq
      rfl
  | fail failure => cases hq
  | note r next ih => exact ⟨trivial, ih hasks hq⟩
  | ask c resume ih =>
      refine ⟨hasks.1, ?_⟩
      rintro _ rfl
      exact ih _ (hasks.2 _) (by simpa only [evaluate_ask] using hq)

end Inquiry

/-! ## Values that no circle disturbs -/

namespace Engine

variable {engine : Engine} {refers : CellAddress → CellAddress → Prop}
  {final : CellAddress → Value} {x y : CellAddress}

/-- What a cell answers while those of `chain` are under computation and all others have come to
their final values. -/
def answering (chain : List CellAddress) (final : CellAddress → Value) (c : CellAddress) : Value :=
  if c ∈ chain then .error .circular else final c

/-- The cell comes to its final value whichever cells that lead to it are under computation, and it
asks then only for cells that it refers to. -/
structure Settles (engine : Engine) (refers : CellAddress → CellAddress → Prop)
    (final : CellAddress → Value) (x : CellAddress) : Prop where
  value : ∀ v, engine.holding x = .result (.ok v) → v = final x
  formula : ∀ chain e, engine.holding x = .formula e → (∀ y ∈ chain, ReflTransGen refers y x) →
    (engine.inquiry chain x e).Meets
      { asks := refers x, fits := fun c v => v = answering (x :: chain) final c } (· = final x)

/-- The cell and all that it leads to settle. -/
def AllSettle (engine : Engine) (refers : CellAddress → CellAddress → Prop)
    (final : CellAddress → Value) (x : CellAddress) : Prop :=
  ∀ z, ReflTransGen refers x z → engine.Settles refers final z

/-- There are final values that two cells and all that they lead to come to, whichever cells that
lead to them are under computation. -/
def Undisturbed (engine : Engine) (x y : CellAddress) : Prop :=
  ∃ refers final, engine.AllSettle refers final x ∧ engine.AllSettle refers final y

/-- Cells that settle, and all that they lead to, are expected to come to their final values. -/
def settling (engine : Engine) (refers : CellAddress → CellAddress → Prop)
    (final : CellAddress → Value) : Expectation where
  cells := engine.AllSettle refers final
  refers := refers
  fits c v := v = final c

theorem fulfils_settling : engine.Fulfils (engine.settling refers final) where
  tooDeep := trivial
  settled c r hc hr := by
    cases r with
    | error failure => trivial
    | ok v => exact (hc c .refl).value v hr
  formula chain c e hc he hchain := by
    refine ((hc c .refl).formula chain e he hchain).mono ?_ fun _ hv => hv
    refine ⟨fun _ h => h, fun y hy => ⟨fun z hz => hc z (.head hy hz), hy⟩, ?_, fun _ h => h⟩
    intro y v hv
    show v = answering (c :: chain) final y
    unfold answering
    obtain ⟨hmem, rfl⟩ | ⟨hnot, rfl⟩ := hv
    · rw [if_pos hmem]
    · rw [if_neg hnot]

end Engine

namespace Evaluator

open Engine

variable {ev : Evaluator} {engine : Engine} {refers : CellAddress → CellAddress → Prop}
  {final : CellAddress → Value} {c d x y : CellAddress} {v w : Value}

/-- A cell that settles has its final value, and leaves no other remembered. -/
theorem reply_final (hev : ev.toEngine = engine) (hread : ev.FormulasRead ev.memory)
    (hm : (engine.settling refers final).Remembered ev.memory)
    (hx : engine.source.canonical c = .ok x) (hsettles : engine.AllSettle refers final x)
    (h : (ev.reply (.cell c)).1 = .ok v) :
    v = final x ∧ (engine.settling refers final).Remembered (ev.reply (.cell c)).2.memory := by
  subst hev
  obtain ⟨hm', houtcome⟩ := evaluate_fulfils fulfils_settling hread hm hx hsettles
  have hreply : ev.evaluate c = ev.reply (.cell c) := rfl
  rw [hreply, h] at houtcome
  exact ⟨houtcome, hm'⟩

/-- Cells that settle have their final values, one after the other. -/
theorem replies_final (hx : engine.source.canonical c = .ok x)
    (hy : engine.source.canonical d = .ok y) (hsettles : engine.AllSettle refers final x)
    (hsettles' : engine.AllSettle refers final y)
    (h : (fresh engine).replies [.cell c, .cell d] = [.ok v, .ok w]) :
    v = final x ∧ w = final y := by
  obtain ⟨hfirst, h⟩ := List.cons.inj h
  obtain ⟨hsecond, -⟩ := List.cons.inj h
  obtain ⟨hv, hm⟩ := reply_final rfl formulasRead_empty (remembered_fresh engine _) hx
    hsettles hfirst
  exact ⟨hv, (reply_final (toEngine_reply _ _) (step_apply formulasRead_empty (.ask (.cell c))).2
    hm hy hsettles' hsecond).1⟩

end Evaluator

/-! ## Two cells that ask only for each other -/

/-- The formula of the first cell asks only for the second. -/
structure Engine.AsksOnlyFor (engine : Engine) (x y : CellAddress) (e : Formula.Expr) : Prop where
  holding : engine.holding x = .formula e
  asks : (engine.inquiry [] x e).AsksOnly (· = y)

/-- What the formula of a cell comes to if all that it asks for answers the value. -/
def Engine.given (engine : Engine) (x : CellAddress) (e : Formula.Expr) (v : Value) :
    Option (Except Failure Value) :=
  (engine.inquiry [] x e).evaluate fun _ => some (.ok v)

/-- The formula of a cell asks for nothing at all. -/
def Engine.AsksNothing (engine : Engine) (x : CellAddress) (e : Formula.Expr) : Prop :=
  (engine.inquiry [] x e).AsksOnly fun _ => False

namespace Runs

open Engine Inquiry

variable {engine : Engine} {depth : Nat} {chain : List CellAddress} {reader : Option CellAddress}
  {q : Inquiry Value} {m m' : Memory} {u v w : Value} {log : Log} {x y : CellAddress}
  {e e' : Formula.Expr}

/-- An inquiry that asks only for cells under computation gets the marker for an answer. -/
theorem evaluate_marked (hq : q.AsksOnly (· ∈ chain))
    (h : Runs engine (.inquiry depth chain reader q) m (.ok v) m' log) :
    q.evaluate (fun _ => some (.ok (.error .circular))) = some (.ok v) := by
  induction q generalizing m log with
  | done a =>
      cases h
      rfl
  | fail failure => cases h
  | note r next ih =>
      cases h with
      | note h => exact ih hq h
  | ask c resume ih =>
      cases h with
      | asked hcell hrest =>
          cases hcell with
          | circle _ => exact (evaluate_ask c resume).trans (ih _ (hq.2 _) hrest)
          | settled hc _ => exact absurd hq.1 hc
          | remembered hc _ => exact absurd hq.1 hc
          | computed hc _ _ _ => exact absurd hq.1 hc

/-- An inquiry that asks only for one cell asks for nothing, or it comes to what the cell answers
makes of it, and that is remembered. -/
theorem inquiry_of_one {good : Value → Prop}
    (h : Runs engine (.inquiry depth chain reader q) m (.ok v) m' log)
    (hcell : ∀ m u m' log, (∀ u, m.values[y]? = some u → good u) →
      Runs engine (.cell depth chain y) m (.ok u) m' log → good u ∧ m'.values[y]? = some u)
    (hm : ∀ u, m.values[y]? = some u → good u) (hq : q.AsksOnly (· = y)) :
    (q.AsksOnly (fun _ => False) ∧ (∀ u, q.evaluate (fun _ => some (.ok u)) = some (.ok v)) ∧
        m'.values[y]? = m.values[y]?) ∨
      ∃ u, good u ∧ q.evaluate (fun _ => some (.ok u)) = some (.ok v) ∧
        m'.values[y]? = some u := by
  induction q generalizing m log with
  | done a =>
      cases h
      exact .inl ⟨trivial, fun _ => rfl, rfl⟩
  | fail failure => cases h
  | note r next ih =>
      cases h with
      | note h =>
          rw [← Memory.values_noted m reader r] at hm ⊢
          exact ih h hm hq
  | ask c resume ih =>
      cases h with
      | @asked _ _ _ _ m₁ _ _ _ u _ _ _ hask hrest =>
          obtain rfl : c = y := hq.1
          obtain ⟨hgood, hkept⟩ := hcell _ _ _ _ hm hask
          have hm₁ (w : Value) (hw : m₁.values[c]? = some w) : good w :=
            Option.some.inj (hkept.symm.trans hw) ▸ hgood
          have hkept' : m'.values[c]? = some u := hrest.values_grow hkept
          refine .inr ⟨u, hgood, (evaluate_ask c resume).trans ?_, hkept'⟩
          obtain ⟨-, hall, -⟩ | ⟨w, -, hw, hw'⟩ := ih u hrest hm₁ (hq.2 u)
          · exact hall u
          · obtain rfl := Option.some.inj (hkept'.symm.trans hw')
            exact hw

/-- A remembered formula cell has the value that is remembered. -/
theorem eq_of_remembered (h : Runs engine (.cell depth [] y) m (.ok w) m' log)
    (he : engine.holding y = .formula e') (hv : m.values[y]? = some v) : w = v := by
  cases h with
  | circle hc => cases hc
  | settled _ hr => cases hr.symm.trans he
  | remembered _ hw => exact Option.some.inj (hw.symm.trans hv)
  | computed _ _ hnone _ => cases hnone.symm.trans hv

section

variable (hu : engine.Uniform) (hremember : engine.settings.remember = true) (hne : x ≠ y)
  (hy : engine.AsksOnlyFor y x e')
include hu hremember hne hy

/-- A cell that asks only for one under computation is remembered as the marker makes it. -/
theorem cell_marked (hm : ∀ u, m.values[y]? = some u →
      engine.given y e' (.error .circular) = some (.ok u))
    (h : Runs engine (.cell depth [x] y) m (.ok u) m' log) :
    engine.given y e' (.error .circular) = some (.ok u) ∧ m'.values[y]? = some u := by
  cases h with
  | circle hc => exact absurd (List.mem_singleton.mp hc).symm hne
  | settled _ hr => cases hr.symm.trans hy.holding
  | remembered _ hv => exact ⟨hm u hv, hv⟩
  | computed _ he _ hrun =>
      cases Holding.formula.inj (he.symm.trans hy.holding)
      rw [hu] at hrun
      refine ⟨hrun.evaluate_marked (hy.asks.mono ?_), ?_⟩
      · rintro _ rfl
        exact List.mem_cons_of_mem _ List.mem_cons_self
      · rw [Memory.values_keep, if_pos ⟨hremember, rfl⟩]

/-- A cell that asks only for another asks for nothing, or the other is remembered as the marker
makes it, and the cell comes to what it makes of that. -/
theorem cell_of_pair (hx : engine.AsksOnlyFor x y e) (hnone : m.values[x]? = none)
    (hm : ∀ u, m.values[y]? = some u → engine.given y e' (.error .circular) = some (.ok u))
    (h : Runs engine (.cell depth [] x) m (.ok v) m' log) :
    m'.values[x]? = some v ∧
      ((engine.AsksNothing x e ∧ (∀ u, engine.given x e u = some (.ok v)) ∧
          m'.values[y]? = m.values[y]?) ∨
        ∃ u, engine.given y e' (.error .circular) = some (.ok u) ∧
          engine.given x e u = some (.ok v) ∧ m'.values[y]? = some u) := by
  cases h with
  | circle hc => cases hc
  | settled _ hr => cases hr.symm.trans hx.holding
  | remembered _ hv => cases hv.symm.trans hnone
  | computed _ he _ hrun =>
      cases Holding.formula.inj (he.symm.trans hx.holding)
      rw [hu] at hrun
      refine ⟨by rw [Memory.values_keep, if_pos ⟨hremember, rfl⟩], ?_⟩
      rw [Memory.values_keep_of_ne hne]
      exact hrun.inquiry_of_one (fun _ _ _ _ => cell_marked hu hremember hne hy) hm hx.asks

end

end Runs

namespace Engine

variable {engine : Engine} {refers : CellAddress → CellAddress → Prop}
  {final : CellAddress → Value} {x y : CellAddress} {e e' : Formula.Expr}

/-- Each of two cells refers to the other, unless it asks for nothing. -/
def RefersWithin (engine : Engine) (x y : CellAddress) (e e' : Formula.Expr)
    (a b : CellAddress) : Prop :=
  (a = x ∧ b = y ∧ ¬ engine.AsksNothing x e) ∨ (a = y ∧ b = x ∧ ¬ engine.AsksNothing y e')

theorem refersWithin_comm : engine.RefersWithin x y e e' = engine.RefersWithin y x e' e :=
  funext₂ fun _ _ => propext or_comm

theorem asks_of_leads (hne : x ≠ y) (h : ReflTransGen (engine.RefersWithin x y e e') y x) :
    ¬ engine.AsksNothing y e' := by
  obtain heq | ⟨b, ⟨heq, -⟩ | ⟨-, -, hasks⟩, -⟩ := h.cases_head
  · exact absurd heq.symm hne
  · exact absurd heq.symm hne
  · exact hasks

/-- A cell that asks only for another settles if its formula comes to the final value both on the
final value of the other and, in case that leads back to it, on the marker. -/
theorem settles_of_given (hu : engine.Uniform) (hne : x ≠ y) (hx : engine.AsksOnlyFor x y e)
    (hrefers : ¬ engine.AsksNothing x e → refers x y)
    (hgiven : engine.given x e (final y) = some (.ok (final x)))
    (hmarked : ReflTransGen refers y x →
      engine.given x e (.error .circular) = some (.ok (final x))) :
    engine.Settles refers final x where
  value v hv := by cases hv.symm.trans hx.holding
  formula chain e₀ he₀ hchain := by
    cases Holding.formula.inj (he₀.symm.trans hx.holding)
    rw [hu]
    have hasks : (engine.inquiry [] x e).AsksOnly (refers x) := by
      by_cases hnothing : engine.AsksNothing x e
      · exact hnothing.mono fun _ h => h.elim
      · refine hx.asks.mono ?_
        rintro _ rfl
        exact hrefers hnothing
    refine hasks.meets ?_
    have hone : (engine.inquiry [] x e).evaluate
          (fun c => some (.ok (answering (x :: chain) final c))) =
        engine.given x e (answering (x :: chain) final y) := by
      refine (Inquiry.evaluate_congr fun c hc => ?_).1
      rw [hx.asks.of_mem_asked hc]
    rw [hone]
    unfold answering
    split
    · rename_i hmem
      exact hmarked (hchain y ((List.mem_cons.mp hmem).resolve_left hne.symm))
    · exact hgiven

end Engine

namespace Evaluator

open Engine Workbook

variable {ev : Evaluator} {engine : Engine} {c d x y : CellAddress} {v w : Value}
  {e e' : Formula.Expr}

/-- The value of a cell is that of a run for it. -/
theorem reply_cell_runs (hev : ev.toEngine = engine) (hread : ev.FormulasRead ev.memory)
    (hx : engine.source.canonical c = .ok x) (h : (ev.reply (.cell c)).1 = .ok v) :
    ∃ m log, m.values = ev.memory.values ∧
      Runs engine (.cell engine.settings.maxDepth [] x) m (.ok v) (ev.reply (.cell c)).2.memory
        log := by
  subst hev
  obtain ⟨formulas, s, m', log, hreply, hruns, -, -⟩ := reply_runs hread (Query.inquiry_cell hx)
  rw [hreply] at h ⊢
  cases h
  cases hruns with
  | asked hcell hdone =>
      cases hdone
      exact ⟨{ ev.memory with formulas }, _, rfl, hcell⟩

section

variable (hu : engine.Uniform) (hremember : engine.settings.remember = true) (hne : x ≠ y)
  (hx : engine.AsksOnlyFor x y e) (hy : engine.AsksOnlyFor y x e')
  (hc : engine.source.canonical c = .ok x) (hd : engine.source.canonical d = .ok y)
include hu hremember hne hx hy hc hd

/-- What two cells come to that ask only for each other: the second is entered from the first, unless
that asks for nothing. -/
theorem replies_of_pair (h : (fresh engine).replies [.cell c, .cell d] = [.ok v, .ok w]) :
    (engine.AsksNothing x e ∧ (∀ u, engine.given x e u = some (.ok v)) ∧
        engine.given y e' v = some (.ok w)) ∨
      (engine.given y e' (.error .circular) = some (.ok w) ∧
        engine.given x e w = some (.ok v)) := by
  obtain ⟨hfirst, h⟩ := List.cons.inj h
  obtain ⟨hsecond, -⟩ := List.cons.inj h
  obtain ⟨m, log, hm, hrun⟩ := reply_cell_runs rfl formulasRead_empty hc hfirst
  have hempty (z : CellAddress) : m.values[z]? = none := by
    rw [hm]
    simp [fresh]
  obtain ⟨m', log', hm', hrun'⟩ := reply_cell_runs (toEngine_reply _ _)
    (step_apply formulasRead_empty (.ask (.cell c))).2 hd hsecond
  obtain ⟨hkept, ⟨hnothing, hall, hother⟩ | ⟨u, hmarked, hgiven, hother⟩⟩ :=
    hrun.cell_of_pair hu hremember hne hy hx (hempty x)
      (fun u hu => by rw [hempty] at hu; cases hu)
  · have hnone : m'.values[y]? = none := by rw [hm', hother, hempty]
    have hmade (u : Value) (hu : m'.values[x]? = some u) :
        engine.given x e (.error .circular) = some (.ok u) := by
      rw [hm', hkept] at hu
      exact Option.some.inj hu ▸ hall _
    refine .inl ⟨hnothing, hall, ?_⟩
    obtain ⟨-, ⟨-, hall', -⟩ | ⟨u, hmarked, hgiven, -⟩⟩ :=
      hrun'.cell_of_pair hu hremember hne.symm hx hy hnone hmade
    · exact hall' v
    · cases hmarked.symm.trans (hall _)
      exact hgiven
  · obtain rfl := hrun'.eq_of_remembered hy.holding (hm' ▸ hother)
    exact .inr ⟨hmarked, hgiven⟩

/-- If it makes no difference from which of the two cells they are entered, the marker makes none to
their formulas. -/
theorem undisturbed_of_replies (h : (fresh engine).replies [.cell c, .cell d] = [.ok v, .ok w])
    (h' : (fresh engine).replies [.cell d, .cell c] = [.ok w, .ok v]) :
    engine.Undisturbed x y := by
  have hcases := replies_of_pair hu hremember hne hx hy hc hd h
  have hcases' := replies_of_pair hu hremember hne.symm hy hx hd hc h'
  have hgiven : engine.given x e w = some (.ok v) :=
    hcases.elim (fun ⟨_, hall, _⟩ => hall w) And.right
  have hgiven' : engine.given y e' v = some (.ok w) :=
    hcases'.elim (fun ⟨_, hall, _⟩ => hall v) And.right
  let refers := engine.RefersWithin x y e e'
  let final (a : CellAddress) : Value := if a = x then v else w
  have hfinal : final x = v := if_pos rfl
  have hfinal' : final y = w := if_neg hne.symm
  have hsettles : engine.Settles refers final x := by
    refine settles_of_given hu hne hx (fun h => .inl ⟨rfl, rfl, h⟩) ?_ fun hleads => ?_
    · rw [hfinal, hfinal', hgiven]
    · -- `y` asks for `x`, so `x` was computed below it in the second order
      rw [hfinal]
      exact (hcases'.resolve_left fun h => asks_of_leads hne hleads h.1).1
  have hsettles' : engine.Settles refers final y := by
    refine settles_of_given hu hne.symm hy (fun h => .inr ⟨rfl, rfl, h⟩) ?_ fun hleads => ?_
    · rw [hfinal, hfinal', hgiven']
    · rw [hfinal']
      rw [show refers = engine.RefersWithin y x e' e from refersWithin_comm] at hleads
      exact (hcases.resolve_left fun h => asks_of_leads hne.symm hleads h.1).1
  have hreached {a z : CellAddress} (ha : a = x ∨ a = y) (h : ReflTransGen refers a z) :
      engine.Settles refers final z := by
    have hz : z = x ∨ z = y := by
      induction h with
      | refl => exact ha
      | tail _ h _ => exact h.elim (fun h => .inr h.2.1) fun h => .inl h.2.1
    obtain rfl | rfl := hz
    · exact hsettles
    · exact hsettles'
  exact ⟨refers, final, fun z => hreached (.inl rfl), fun z => hreached (.inr rfl)⟩

end

/-- **Where evaluation starts makes no difference unless a formula minds the marker.** Ask a fresh
evaluator for two cells, and another one in the other order, and let both answer. Each cell has the
same value in both orders if some final values are such that the cells, and all that they lead to,
come to them whichever cells that lead to them are under computation. For two cells that ask only
for each other it has the same value only then, if values are remembered. -/
theorem entry_independent {v' w' : Value} (hc : engine.source.canonical c = .ok x)
    (hd : engine.source.canonical d = .ok y)
    (h : (fresh engine).replies [.cell c, .cell d] = [.ok v, .ok w])
    (h' : (fresh engine).replies [.cell d, .cell c] = [.ok w', .ok v']) :
    (engine.Undisturbed x y → v = v' ∧ w = w') ∧
      (engine.registry = .builtins → engine.settings.remember = true → x ≠ y →
        ∀ e e', engine.AsksOnlyFor x y e → engine.AsksOnlyFor y x e' → v = v' ∧ w = w' →
          engine.Undisturbed x y) := by
  constructor
  · rintro ⟨refers, final, hx, hy⟩
    obtain ⟨hv, hw⟩ := replies_final hc hd hx hy h
    obtain ⟨hw', hv'⟩ := replies_final hd hc hy hx h'
    exact ⟨hv.trans hv'.symm, hw.trans hw'.symm⟩
  · rintro hregistry hremember hne e e' hx hy ⟨rfl, rfl⟩
    exact undisturbed_of_replies (uniform hregistry) hremember hne hx hy hc hd h h'

/-- The cell beside the first one. -/
def secondCell : Formula.Expr := .cell none { row := 1, col := 2 }

theorem asksOnlyFor_cell {coord : Coord} (hx : engine.holding x = .formula (.cell none coord))
    (hy : y = coord.on x.sheet) : engine.AsksOnlyFor x y (.cell none coord) where
  holding := hx
  asks := by
    have hvalue : engine.inquiry [] x (.cell none coord) = Site.readCell y :=
      hy ▸ Formula.Expr.value_cell coord
    rw [hvalue]
    exact ⟨rfl, fun _ => trivial⟩

set_option maxRecDepth 4000 in
theorem replies_circle :
    (fresh (.formulaPair "B1" "A1")).replies [.cell pairValue, .cell pairFormula] =
      [.ok (.error .circular), .ok (.error .circular)] := by
  decide +kernel

set_option maxRecDepth 4000 in
theorem replies_circle_turned :
    (fresh (.formulaPair "B1" "A1")).replies [.cell pairFormula, .cell pairValue] =
      [.ok (.error .circular), .ok (.error .circular)] := by
  decide +kernel

set_option maxRecDepth 4000 in
theorem entry_independent_circle :
    (Engine.formulaPair "B1" "A1").Undisturbed pairValue pairFormula ∧
      ∃ v v' w w',
        (fresh (.formulaPair "B1" "A1")).replies [.cell pairValue, .cell pairFormula] =
          [.ok v, .ok w] ∧
        (fresh (.formulaPair "B1" "A1")).replies [.cell pairFormula, .cell pairValue] =
          [.ok w', .ok v'] ∧ v = v' ∧ w = w' := by
  have hx : (Engine.formulaPair "B1" "A1").AsksOnlyFor pairValue pairFormula secondCell :=
    asksOnlyFor_cell (holding_eq_formula.mpr ⟨_, _, rfl, rfl, by decide +kernel⟩) rfl
  have hy : (Engine.formulaPair "B1" "A1").AsksOnlyFor pairFormula pairValue firstCell :=
    asksOnlyFor_cell (holding_eq_formula.mpr ⟨_, _, rfl, rfl, readFormula_firstCell⟩) rfl
  obtain ⟨hagree, hundisturbed⟩ := entry_independent rfl rfl replies_circle replies_circle_turned
  have h := hundisturbed rfl rfl (by decide) secondCell firstCell hx hy ⟨rfl, rfl⟩
  exact ⟨h, _, _, _, _, replies_circle, replies_circle_turned, hagree h⟩

/-- Whether the first cell is an error. -/
def firstIsError : Formula.Expr := .call "ISERROR" [firstCell]

set_option maxRecDepth 4000 in
theorem replies_handled :
    (fresh (.formulaPair "B1" "ISERROR(A1)")).replies [.cell pairValue, .cell pairFormula] =
      [.ok (.bool true), .ok (.bool true)] := by
  decide +kernel

set_option maxRecDepth 4000 in
theorem replies_handled_turned :
    (fresh (.formulaPair "B1" "ISERROR(A1)")).replies [.cell pairFormula, .cell pairValue] =
      [.ok (.bool true), .ok (.error .circular)] := by
  decide +kernel

theorem holding_handled :
    (Engine.formulaPair "B1" "ISERROR(A1)").holding pairValue = .formula secondCell ∧
      (Engine.formulaPair "B1" "ISERROR(A1)").holding pairFormula = .formula firstIsError :=
  ⟨holding_eq_formula.mpr ⟨_, _, rfl, rfl, by decide +kernel⟩,
    holding_eq_formula.mpr ⟨_, _, rfl, rfl, by decide +kernel⟩⟩

/-- A formula on a circle that handles the marker makes the values depend on where evaluation
starts. -/
theorem entry_matters :
    (Engine.formulaPair "B1" "ISERROR(A1)").Refers pairValue pairFormula ∧
      (Engine.formulaPair "B1" "ISERROR(A1)").Refers pairFormula pairValue ∧
      ∃ v v' w w',
        (fresh (.formulaPair "B1" "ISERROR(A1)")).replies [.cell pairValue, .cell pairFormula] =
          [.ok v, .ok w] ∧
        (fresh (.formulaPair "B1" "ISERROR(A1)")).replies [.cell pairFormula, .cell pairValue] =
          [.ok w', .ok v'] ∧ v ≠ v' := by
  obtain ⟨hfirst, hsecond⟩ := holding_handled
  refine ⟨⟨secondCell, hfirst, ?_⟩, ⟨firstIsError, hsecond, ?_⟩, _, _, _, _, replies_handled,
    replies_handled_turned, by simp⟩
  · exact (Formula.Expr.refersTo_cell _).mpr rfl
  · exact ⟨{ row := 1, col := 1 }, by simp [firstIsError, firstCell, Formula.Expr.nodes,
      Formula.Expr.nodesOf], rfl⟩

end Evaluator

end Spreadsheet
