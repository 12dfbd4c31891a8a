-- SUMMARY: The value of a formula does not depend on how it spells sheets, unless joins do.
import Spreadsheet.Proofs.InStep
import Spreadsheet.Proofs.Queries
import Spreadsheet.Proofs.Respelling

/-!
# Formulas in another spelling

A formula can spell the sheets of its references in another case. Its value is the same, although
the cells it reads are computed under the spelling it has. What compares spellings is joining two
references with `:`. So the value stays wherever the formula, and the formulas computed for it, join
areas of one sheet only where they spell it alike.
-/

namespace Spreadsheet

open Inquiry

/-! ## Expressions -/

namespace Formula.Expr

theorem equal_of_foldedName {name name' : String} (h : foldedName name' = foldedName name) :
    Text.equalIgnoringCase name name' := by
  refine Text.equalIgnoringCase_iff.mpr ?_
  have hlowered := congrArg String.toList h
  simp only [foldedName, String.toList_ofList] at hlowered
  exact hlowered.symm

theorem foldedOf_eq_map (es : List Expr) : foldedOf es = es.map folded := by
  induction es with
  | nil => rfl
  | cons e es ih => rw [foldedOf, ih, List.map_cons]

theorem length_foldedOf (es : List Expr) : (foldedOf es).length = es.length := by
  rw [foldedOf_eq_map, List.length_map]

mutual

theorem nodes_folded (e : Expr) : e.folded.nodes = e.nodes.map folded := by
  match e with
  | .literal _ | .cell _ _ | .area _ _ | .name _ => rfl
  | .table t => simp [folded, nodes, Function.comp_def]
  | .unary op e => simp only [folded, nodes, List.map_cons, nodes_folded e]
  | .binary op l r =>
      simp only [folded, nodes, List.map_cons, List.map_append, nodes_folded l, nodes_folded r]
  | .call function es => simp only [folded, nodes, List.map_cons, nodesOf_folded es]
  | .union es => simp only [folded, nodes, List.map_cons, nodesOf_folded es]

theorem nodesOf_folded (es : List Expr) : nodesOf (foldedOf es) = (nodesOf es).map folded := by
  match es with
  | [] => rfl
  | e :: es =>
      simp only [foldedOf, nodesOf, List.map_append, nodes_folded e, nodesOf_folded es]

end

theorem countFailure?_folded (registry : Registry) (e : Expr) :
    registry.countFailure? e.folded = registry.countFailure? e := by
  have hnode (node : Expr) : registry.callFailure? node.folded = registry.callFailure? node := by
    cases node with
    | call function es => simp only [folded, Registry.callFailure?, length_foldedOf]
    | _ => simp only [folded, Registry.callFailure?]
  rw [Registry.countFailure?, nodes_folded, List.findSome?_map, Function.comp_def]
  simp only [hnode]
  rfl

end Formula.Expr

variable {registry : Registry} {answers : Answers} {site site' : Site}

/-- Where the expression joins two areas of one sheet, they spell it alike. -/
def Site.JoinsAlike (site : Site) (registry : Registry) (answers : Answers) :
    Formula.Expr → Prop
  | .binary .range l r => ∀ a b, (l.operand registry site).evaluate answers = some (.ok a) →
    (r.operand registry site).evaluate answers = some (.ok b) → Operand.JoinAlike site.source a b
  | _ => True

/-- A sheet named in another case is the same sheet, and so is the one of the cell. -/
theorem Site.sheet?_respelled (hstored : site.source.asAsked = false) (h : site.Near site')
    {name? name?' : Option String}
    (hname : name?'.map Formula.Expr.foldedName = name?.map Formula.Expr.foldedName) :
    Option.Rel site.source.SameSheet (site.sheet? name?) (site'.sheet? name?') := by
  match name?, name?', hname with
  | none, none, _ => exact .some h.cell.1
  | some name, some name', hname =>
      have hequal := Formula.Expr.equal_of_foldedName (Option.some.inj hname)
      have hsheet := Source.sheetName?_eq_of_equal hstored hequal
      unfold sheet?
      dsimp only
      rw [h.source, ← hsheet]
      cases hfound : site.source.sheetName? name with
      | none => exact .none
      | some stored => exact .some ⟨stored, hfound, hsheet ▸ hfound⟩

/-- What is placed on a sheet that is named in another case is placed on the same sheet. -/
theorem Site.placed_respelled (hstored : site.source.asAsked = false) (h : site.Near site')
    {name? name?' : Option String}
    (hname : name?'.map Formula.Expr.foldedName = name?.map Formula.Expr.foldedName)
    {place : String → Area}
    (hplace : ∀ s s', site.source.SameSheet s s' → site.source.SameArea (place s) (place s')) :
    Operand.Respelled site.source
      (match site.sheet? name? with
        | some sheet => .ofArea (place sheet)
        | none => .error .reference)
      (match site'.sheet? name?' with
        | some sheet => .ofArea (place sheet)
        | none => .error .reference) := by
  have hsheet := sheet?_respelled hstored h hname
  generalize site.sheet? name? = sheet?, site'.sheet? name?' = sheet?' at hsheet ⊢
  cases hsheet with
  | none => exact .value _
  | some hsheet => exact .ofArea (hplace _ _ hsheet)

namespace Formula.Expr

/-- What the expressions inquire for their operands is in step at the sites. -/
def InStepAt (registry : Registry) (answers : Answers) (site site' : Site) (e e' : Expr) : Prop :=
  InStep site.source answers (Operand.Respelled site.source) (e.operand registry site)
    (e'.operand registry site')

/-! Operators, calls and lists are in step if their parts are. -/

section Parts

variable {op : BinaryOp} {l l' r r' : Expr} {function : String} {es es' : List Expr}
  (h : site.Near site')
include h

theorem inStep_range (hl : InStepAt registry answers site site' l l')
    (hr : InStepAt registry answers site site' r r')
    (hjoins : site.JoinsAlike registry answers (.binary .range l r))
    (hjoins' : site'.JoinsAlike registry answers (.binary .range l' r')) :
    InStepAt registry answers site site' (.binary .range l r) (.binary .range l' r') := by
  refine hl.reached.bind fun a a' ha => hr.reached.bind fun b b' hb => .done ?_
  obtain ⟨ha, hgives, hgives'⟩ := ha
  obtain ⟨hb, hgiven, hgiven'⟩ := hb
  refine ha.between hb (hjoins a b hgives hgiven) ?_
  have hjoin' := hjoins' a' b' hgives' hgiven'
  exact h.source ▸ hjoin'

theorem inStep_binary (hop : op ≠ .range) (hl : InStepAt registry answers site site' l l')
    (hr : InStepAt registry answers site site' r r') :
    InStepAt registry answers site site' (.binary op l r) (.binary op l' r') := by
  have hl := hl.bind fun _ _ ho => Site.inStep_read h.source ho
  have hr := hr.bind fun _ _ ho => Site.inStep_read h.source ho
  rw [InStepAt, operand_binary hop, operand_binary hop]
  refine hl.bind fun v v' hv => hr.bind fun w w' hw => ?_
  cases hv
  cases hw
  exact .done (.value _)

omit h in
theorem inStep_areasOf (hes : List.Forall₂ (InStepAt registry answers site site') es es')
    {areas areas' : List Area} (hareas : List.Forall₂ site.source.SameArea areas areas') :
    InStep site.source answers (Operand.Respelled site.source) (areasOf registry site es areas)
      (areasOf registry site' es' areas') := by
  induction hes generalizing areas areas' with
  | nil => exact .done (.reference hareas)
  | cons ho _ ih =>
      refine ho.bind fun o o' ho => ?_
      cases ho with
      | reference hgiven => exact ih (List.rel_append hareas hgiven)
      | value v =>
          cases v with
          | scalar s => cases s <;> exact .done (.value _)
          | table t => exact .done (.value _)

theorem inStep_argumentsOf (f : Function) (index : Nat)
    (hes : List.Forall₂ (InStepAt registry answers site site') es es') :
    InStep site.source answers (f.RespelledPrepared site.source)
      (argumentsOf registry site f index es) (argumentsOf registry site' f index es') := by
  induction hes generalizing index with
  | nil => exact .done (.ok ⟨.nil, fun _ => rfl⟩)
  | cons ho _ ih =>
      unfold InStepAt at ho
      refine (Site.inStep_prepare h.source (f.paramKind index) ho).bind fun p p' hp => ?_
      cases hp with
      | error err => exact .done (.error err)
      | ok harg hsame =>
          refine (ih (index + 1)).bind fun rest rest' hrest => .done ?_
          cases hrest with
          | error err => exact .error err
          | ok hargs => exact .ok (.cons harg hsame hargs)

theorem inStep_valueAt (index : Nat)
    (hes : List.Forall₂ (InStepAt registry answers site site') es es') :
    InStep site.source answers Eq (valueAt registry site index es)
      (valueAt registry site' index es') := by
  induction hes generalizing index with
  | nil => cases index <;> exact .done rfl
  | cons ho _ ih =>
      cases index with
      | zero => exact ho.bind fun o o' ho => Site.inStep_read h.source ho
      | succ index => exact ih index

theorem inStep_call (hblind : ∀ f ∈ registry.functions, f.Blind)
    (hes : List.Forall₂ (InStepAt registry answers site site') es es') :
    InStepAt registry answers site site' (.call function es) (.call function es') := by
  unfold InStepAt operand
  rw [← hes.length_eq]
  cases hf : registry.get? function with
  | none => exact .done (.value _)
  | some f =>
      dsimp only
      cases f.checkCount es.length with
      | error failure => exact .fail failure
      | ok _ =>
          refine (inStep_argumentsOf h f 0 hes).bind fun prepared prepared' hprepared => ?_
          cases hprepared with
          | error e => exact .done (.value _)
          | ok hargs =>
              exact Site.inStep_call h (hblind f (List.mem_of_find?_eq_some hf)) hargs
                fun i => inStep_valueAt h i hes

end Parts

variable (hblind : ∀ f ∈ registry.functions, f.Blind) (hstored : site.source.asAsked = false)
  (h : site.Near site')
include hblind hstored h

set_option linter.unusedSectionVars false

mutual

theorem inStep_operand (e e' : Expr) (hfolded : e'.folded = e.folded)
    (hjoins : ∀ node ∈ e.nodes, site.JoinsAlike registry answers node)
    (hjoins' : ∀ node ∈ e'.nodes, site'.JoinsAlike registry answers node) :
    InStepAt registry answers site site' e e' := by
  -- by recursion on the first expression; the second one folds to the same, so it is built alike
  match e with
  | .literal s =>
      cases e' with
      | literal s' =>
          cases hfolded
          exact .done (.value _)
      | _ => simp [folded] at hfolded
  | .table t =>
      cases e' with
      | table t' =>
          cases hfolded
          exact .done (.value _)
      | _ => simp [folded] at hfolded
  -- a reference is placed on the sheet it names, which is found in either case
  | .cell name? coord =>
      cases e' with
      | cell name?' coord' =>
          simp only [folded, cell.injEq] at hfolded
          obtain ⟨hname, rfl⟩ := hfolded
          refine .done (Site.placed_respelled hstored h hname fun _ s' hsheet => ?_)
          exact ⟨s', hsheet, rfl⟩
      | _ => simp [folded] at hfolded
  | .area name? corners =>
      cases e' with
      | area name?' corners' =>
          simp only [folded, area.injEq] at hfolded
          obtain ⟨hname, rfl⟩ := hfolded
          refine .done (Site.placed_respelled hstored h hname fun _ s' hsheet => ?_)
          exact ⟨s', hsheet, rfl⟩
      | _ => simp [folded] at hfolded
  | .name word =>
      cases e' with
      | name word' =>
          cases hfolded
          exact .done (Site.named_respelled h word)
      | _ => simp [folded] at hfolded
  -- the operators read their operands, so they are blind to spellings
  | .unary op e =>
      cases e' with
      | unary op' e' =>
          simp only [folded, unary.injEq] at hfolded
          obtain ⟨rfl, hfolded⟩ := hfolded
          simp only [nodes, List.forall_mem_cons] at hjoins hjoins'
          refine (inStep_operand e e' hfolded hjoins.2 hjoins'.2).bind fun o o' ho => ?_
          refine (Site.inStep_read h.source ho).bind fun v v' hv => ?_
          cases hv
          exact .done (.value _)
      | _ => simp [folded] at hfolded
  | .binary op l r =>
      cases e' with
      | binary op' l' r' =>
          simp only [folded, binary.injEq] at hfolded
          obtain ⟨rfl, hleft, hright⟩ := hfolded
          simp only [nodes, List.forall_mem_cons, List.forall_mem_append] at hjoins hjoins'
          have hl := inStep_operand l l' hleft hjoins.2.1 hjoins'.2.1
          have hr := inStep_operand r r' hright hjoins.2.2 hjoins'.2.2
          -- only the join compares spellings, and so needs that they agree
          by_cases hop : op' = .range
          · subst hop
            exact inStep_range h hl hr hjoins.1 hjoins'.1
          · exact inStep_binary h hop hl hr
      | _ => simp [folded] at hfolded
  | .union items =>
      cases e' with
      | union items' =>
          simp only [folded, union.injEq] at hfolded
          simp only [nodes, List.forall_mem_cons] at hjoins hjoins'
          exact inStep_areasOf (inStep_operands items items' hfolded hjoins.2 hjoins'.2) .nil
      | _ => simp [folded] at hfolded
  | .call function es =>
      cases e' with
      | call function' es' =>
          simp only [folded, call.injEq] at hfolded
          obtain ⟨rfl, hfolded⟩ := hfolded
          simp only [nodes, List.forall_mem_cons] at hjoins hjoins'
          exact inStep_call h hblind (inStep_operands es es' hfolded hjoins.2 hjoins'.2)
      | _ => simp [folded] at hfolded
termination_by structural e

theorem inStep_operands (es es' : List Expr) (hfolded : foldedOf es' = foldedOf es)
    (hjoins : ∀ node ∈ nodesOf es, site.JoinsAlike registry answers node)
    (hjoins' : ∀ node ∈ nodesOf es', site'.JoinsAlike registry answers node) :
    List.Forall₂ (InStepAt registry answers site site') es es' := by
  match es with
  | [] =>
      cases es' with
      | nil => exact .nil
      | cons _ _ => simp [foldedOf] at hfolded
  | e :: es =>
      cases es' with
      | nil => simp [foldedOf] at hfolded
      | cons e' es' =>
          simp only [foldedOf, List.cons.injEq] at hfolded
          simp only [nodesOf, List.forall_mem_append] at hjoins hjoins'
          exact .cons (inStep_operand e e' hfolded.1 hjoins.1 hjoins'.1)
            (inStep_operands es es' hfolded.2 hjoins.2 hjoins'.2)
termination_by structural es

end

/-- The inquiries for the values of two spellings are in step. -/
theorem inStep_value {e e' : Expr} (hfolded : e'.folded = e.folded)
    (hjoins : ∀ node ∈ e.nodes, site.JoinsAlike registry answers node)
    (hjoins' : ∀ node ∈ e'.nodes, site'.JoinsAlike registry answers node) :
    InStep site.source answers Eq (e.value registry site) (e'.value registry site') :=
  (inStep_operand hblind hstored h e e' hfolded hjoins hjoins').bind
    fun _ _ ho => Site.inStep_read h.source ho

end Formula.Expr

/-! ## Cells -/

namespace Engine

variable {engine : Engine} {c c' : CellAddress} {e e' f : Formula.Expr}

/-- Where the expression joins two areas of one sheet at the site, they spell it alike, all cells
having their plain values. -/
def JoinsAlike (engine : Engine) (site : Site) (e : Formula.Expr) : Prop :=
  ∀ n, ∀ node ∈ e.nodes, site.JoinsAlike engine.registry (engine.plain n) node

/-- The formula of the first cell asks for the second one, whatever it comes to. -/
def Consults (engine : Engine) (c d : CellAddress) : Prop :=
  ∃ e n, engine.holding c = .formula e ∧ d ∈ (engine.inquiry [] c e).asked (engine.plain n)

/-- The expression joins areas of one sheet only where they spell it alike, and so do all formulas
that are computed for it. -/
structure SpellsAlike (engine : Engine) (site : Site) (e : Formula.Expr) : Prop where
  joins : engine.JoinsAlike site e
  cells : ∀ n, ∀ c ∈ (e.value engine.registry site).asked (engine.plain n), ∀ d f,
    Relation.ReflTransGen engine.Consults c d → engine.holding d = .formula f →
      engine.JoinsAlike ⟨engine.source, d, 1⟩ f

/-- The expression comes to something at the site without nesting more formulas than is allowed. -/
def Settled (engine : Engine) (site : Site) (e : Formula.Expr) : Prop :=
  ∃ n ≤ engine.settings.maxDepth, ∃ r,
    (e.value engine.registry site).evaluate (engine.plain n) = some r

theorem SpellsAlike.asked {site : Site} (h : engine.SpellsAlike site e) {n : Nat}
    (hc : c ∈ (e.value engine.registry site).asked (engine.plain n))
    (hf : engine.holding c = .formula f) : engine.SpellsAlike ⟨engine.source, c, 1⟩ f where
  joins := h.cells n c hc c f .refl hf
  cells k _ hd x g hx hg := h.cells n c hc x g (.head ⟨f, k, hf, hd⟩ hx) hg

/-- What a cell holds does not depend on how its sheet is spelled. -/
theorem holding_respelled (h : engine.source.SameCell c c') :
    engine.holding c' = engine.holding c := by
  unfold holding
  rw [h.read]

section

variable (hblind : ∀ f ∈ engine.registry.functions, f.Blind)
  (hstored : engine.source.asAsked = false) {n : Nat} {site site' : Site}
  {r : Except Failure Value}
include hblind hstored

/-- Two spellings of an expression come to the same if the formula cells do that they ask for. -/
theorem evaluate_of_cells (hsource : site.source = engine.source) (hsite : site.Near site')
    (hfolded : e'.folded = e.folded) (he : engine.JoinsAlike site e)
    (he' : engine.JoinsAlike site' e')
    (hcells : ∀ c ∈ (e.value engine.registry site).asked (engine.plain n),
      ∀ c' ∈ (e'.value engine.registry site').asked (engine.plain n),
      engine.source.SameCell c c' → engine.IsFormula c →
        ∀ a, engine.plain n c = some a → engine.plain n c' = some a)
    (hr : (e.value engine.registry site).evaluate (engine.plain n) = some r) :
    (e'.value engine.registry site').evaluate (engine.plain n) = some r := by
  have hstep := Formula.Expr.inStep_value hblind (hsource ▸ hstored) hsite hfolded (he n) (he' n)
  refine hstep.evaluate (fun c hc c' hc' hsame a ha => ?_) hr
  rw [hsource] at hsame
  cases hf : engine.holding c with
  | result result =>
      rw [plain_of_result hf] at ha
      rw [plain_of_result ((holding_respelled hsame).trans hf), ha]
  | formula f => exact hcells c hc c' hc' hsame ⟨f, hf⟩ a ha

/-- Two spellings of an expression come to the same in a cell, in whatever case its sheet is
spelled. -/
theorem evaluate_respelled (hsource : site.source = engine.source) (hsite : site.Near site')
    (hfolded : e'.folded = e.folded) (he : engine.SpellsAlike site e)
    (he' : engine.SpellsAlike site' e')
    (hr : (e.value engine.registry site).evaluate (engine.plain n) = some r) :
    (e'.value engine.registry site').evaluate (engine.plain n) = some r := by
  induction n generalizing site site' e e' r with
  | zero =>
      refine evaluate_of_cells hblind hstored hsource hsite hfolded he.joins he'.joins ?_ hr
      rintro c - c' - - ⟨f, hf⟩ a ha
      rw [plain_zero hf] at ha
      cases ha
  | succ n ih =>
      refine evaluate_of_cells hblind hstored hsource hsite hfolded he.joins he'.joins ?_ hr
      -- a formula cell holds one formula in both spellings, and that one is nested less deep
      rintro c hc c' hc' hsame ⟨f, hf⟩ a ha
      have hf' := (holding_respelled hsame).trans hf
      rw [plain_succ hf] at ha
      rw [plain_succ hf']
      have hnear : Site.Near ⟨engine.source, c, 1⟩ ⟨engine.source, c', 1⟩ := ⟨rfl, hsame⟩
      exact ih rfl hnear rfl (he.asked hc hf) (he'.asked hc' hf') ha

end

end Engine

/-! ## Formulas -/

namespace Evaluator

open Engine Formula

variable {engine : Engine} {entered entered' : String} {cell x : CellAddress} {e e' : Expr}

/-- What a formula inquires once the cell is found and the formula is read. -/
theorem inquiry_formula (hx : engine.source.canonical cell = .ok x)
    (he : Expr.ofText entered = .ok e) :
    Query.inquiry engine (.formula entered cell) =
      match engine.registry.countFailure? e with
      | some failure => .error failure
      | none => .ok (e.value engine.registry ⟨engine.source, x, 0⟩) := by
  have hread : engine.registry.readFormula entered =
      match engine.registry.countFailure? e with
      | some failure => throw failure
      | none => pure e := by
    rw [Registry.readFormula, he]
    rfl
  cases hcount : engine.registry.countFailure? e with
  | some failure =>
      rw [hcount] at hread
      simp only [Query.inquiry, hx, hread]
      rfl
  | none =>
      rw [hcount] at hread
      simp only [Query.inquiry, hx, hread]
      rfl

theorem evaluateFormula_error {failure : Failure}
    (hq : Query.inquiry engine (.formula entered cell) = .error failure) :
    ((fresh engine).evaluateFormula entered cell).1 = .error failure := by
  obtain ⟨_, hreply, -, -⟩ := reply_error (reliable_fresh engine).formulas hq
  exact congrArg Prod.fst hreply

/-- A fresh evaluator answers what a formula comes to, if it nests no deeper than is allowed. -/
theorem evaluateFormula_plain (hu : engine.Uniform) {q : Inquiry Value} {n : Nat}
    {r : Except Failure Value} (hq : Query.inquiry engine (.formula entered cell) = .ok q)
    (hr : q.evaluate (engine.plain n) = some r) (hn : n ≤ engine.settings.maxDepth) :
    ((fresh engine).evaluateFormula entered cell).1 = r := by
  have hfresh := reliable_fresh engine
  obtain ⟨_, s, m', log, hreply, hruns, -, -⟩ := reply_runs hfresh.formulas hq
  have hattains : engine.Attains n (.inquiry engine.settings.maxDepth [] none q) r :=
    ⟨hr, by simp [Task.chain]⟩
  have hevaluate : (fresh engine).evaluateFormula entered cell = _ := hreply
  rw [hevaluate]
  obtain ⟨-, hs | ⟨-, hlt⟩, -⟩ := hruns.attains hu hfresh.faithful hattains
  · exact hs
  · exact absurd (Nat.lt_of_lt_of_le hlt hn) (Nat.lt_irrefl _)

/-- **Sheets in any case.** Let two formulas differ in the case of sheets in front of references
only. If one is read, the other one is read if and only if each reference of it that repeats its
sheet repeats the spelling. If both are read, fresh evaluators give them the same value or the same
failure for every cell, as far as areas of one sheet are joined with `:` only where they spell it
alike, in both formulas and in all formulas computed for them, and the first one comes to something
within the depth that is allowed. -/
theorem sheets_in_any_case (hregistry : engine.registry = .builtins)
    (hstored : engine.source.asAsked = false)
    (h : Respelled (CellContent.formulaBody entered.toList)
      (CellContent.formulaBody entered'.toList)) :
    (∀ e, Expr.ofText entered = .ok e → ((∃ e', Expr.ofText entered' = .ok e') ↔
        RepeatsAlike (CellContent.formulaBody entered'.toList))) ∧
      (∀ e', Expr.ofText entered' = .ok e' → ((∃ e, Expr.ofText entered = .ok e) ↔
        RepeatsAlike (CellContent.formulaBody entered.toList))) ∧
      ∀ e e' cell, Expr.ofText entered = .ok e → Expr.ofText entered' = .ok e' →
        (∀ x, engine.source.canonical cell = .ok x →
          engine.SpellsAlike ⟨engine.source, x, 0⟩ e ∧
          engine.SpellsAlike ⟨engine.source, x, 0⟩ e' ∧ engine.Settled ⟨engine.source, x, 0⟩ e) →
        ((fresh engine).evaluateFormula entered cell).1 =
          ((fresh engine).evaluateFormula entered' cell).1 := by
  refine ⟨fun e he => h.read_iff he, fun e' he' => h.symm.read_iff he', ?_⟩
  intro e e' cell he he' hcell
  have hfolded := h.folded_eq he he'
  cases hx : engine.source.canonical cell with
  | error fault =>
      have hq (entered : String) : Query.inquiry engine (.formula entered cell) =
          .error (.model fault) := by
        simp only [Query.inquiry, hx]
        rfl
      rw [evaluateFormula_error (hq entered), evaluateFormula_error (hq entered')]
  | ok x =>
      obtain ⟨hspells, hspells', n, hn, r, hr⟩ := hcell x hx
      have hq := inquiry_formula hx he
      have hq' := inquiry_formula hx he'
      have hcount : engine.registry.countFailure? e' = engine.registry.countFailure? e := by
        rw [← Expr.countFailure?_folded, hfolded, Expr.countFailure?_folded]
      rw [hcount] at hq'
      cases hfailure : engine.registry.countFailure? e with
      | some failure =>
          rw [hfailure] at hq hq'
          rw [evaluateFormula_error hq, evaluateFormula_error hq']
      | none =>
          rw [hfailure] at hq hq'
          -- both are answered for the same cell, so it is the formulas alone that differ
          obtain ⟨-, sheet, hsheet, rfl⟩ := Source.canonical_eq_ok.mp hx
          have hnear : Site.Near ⟨engine.source, { cell with sheet }, 0⟩
              ⟨engine.source, { cell with sheet }, 0⟩ :=
            ⟨rfl, ⟨sheet, Source.spells_of_sheetName? hsheet,
              Source.spells_of_sheetName? hsheet⟩, rfl, rfl⟩
          have hr' := evaluate_respelled (hregistry ▸ Registry.builtins_blind) hstored rfl hnear
            hfolded hspells hspells' hr
          have hu := uniform hregistry
          rw [evaluateFormula_plain hu hq hr hn, evaluateFormula_plain hu hq' hr' hn]

/-! ### Two cells in a row -/

theorem sheet1_respells : Qualifier.sheet1.Respells .sheet1 := .word rfl

theorem raisedSheet1_respells : Qualifier.sheet1.Respells .raisedSheet1 := .word (by decide)

/-- `A1` behind the spelling given. -/
def leftCell (sheet : Qualifier) : Parts := .ofCell (some sheet) .upperA .one

/-- `B1` behind the spelling given. -/
def rightCell (sheet : Qualifier) : Parts := .ofCell (some sheet) .upperB .one

/-- `A1:B1` with both cells behind the spellings given. -/
def rowOf (sheet again : Qualifier) : Parts :=
  .pair (some sheet) (.cell false .upperA false .one) (some again) (.cell false .upperB false .one)
    rfl fun _ => rfl

/-- `A1:(B1)` with both cells behind the spellings given. -/
def joinedChars (sheet other : Qualifier) : List Char :=
  (leftCell sheet).chars ++ ([':'] ++ (['('] ++ ((rightCell other).chars ++ [')'])))

/-- What two cells joined are read as, their sheet being spelled as given. -/
def joinedExpr (sheet other : String) : Expr :=
  .binary .range (.cell (some sheet) { row := 1, col := 1 })
    (.cell (some other) { row := 1, col := 2 })

set_option maxRecDepth 4000 in
theorem respelled_joinedChars {sheet other : Qualifier} (hsheet : Qualifier.sheet1.Respells sheet)
    (hother : Qualifier.sheet1.Respells other) :
    Respelled (joinedChars .sheet1 .sheet1) (joinedChars sheet other) := by
  have hleft : (leftCell .sheet1).Respells (leftCell sheet) := .single (.some hsheet)
  have hright : (rightCell .sheet1).Respells (rightCell other) := .single (.some hother)
  have h := Respelled.reference (by decide +kernel) hright (.same [')'])
  have h := @Respelled.keep ['('] _ _ .openParen (by decide +kernel) h
  have h := @Respelled.keep [':'] _ _ .operator (by decide +kernel) h
  exact .reference (by decide +kernel) hleft h

theorem spellsAlike_joinedExpr {site : Site} (sheet : String) :
    (Engine.pair true "A1").SpellsAlike site (joinedExpr sheet sheet) where
  joins n node hnode := by
    obtain rfl | rfl | rfl : node = _ ∨ node = _ ∨ node = _ := by
      simpa [joinedExpr, Expr.nodes] using hnode
    · rintro a b ha hb x y rfl rfl -
      unfold Expr.operand at ha hb
      cases hsheet : site.sheet? (some sheet) with
      | none =>
          rw [hsheet] at ha
          cases ha
      | some found =>
          rw [hsheet] at ha hb
          cases ha
          cases hb
          rfl
    · trivial
    · trivial
  cells n c _ d f _ hf := by
    have hbook : (Engine.pair true "A1").source.workbook = .pair true "A1" := rfl
    obtain ⟨-, -, rfl⟩ := holding_pair hbook readFormula_firstCell hf
    intro n node hnode
    obtain rfl : node = firstCell := List.mem_singleton.mp hnode
    trivial

set_option maxRecDepth 4000 in
theorem ofText_joined :
    Expr.ofText "=Sheet1!A1:(Sheet1!B1)" = .ok (joinedExpr "Sheet1" "Sheet1") := by
  decide +kernel

set_option maxRecDepth 4000 in
theorem evaluate_joined :
    ((joinedExpr "Sheet1" "Sheet1").value .builtins
      ⟨(Engine.pair true "A1").source, Workbook.pairValue, 0⟩).evaluate
        ((Engine.pair true "A1").plain 1) =
      some (.ok (.table ⟨1, 2, #[.bool true, .bool true]⟩)) := by
  decide +kernel

set_option maxRecDepth 4000 in
theorem sheets_in_any_case_joined :
    (Engine.pair true "A1").registry = .builtins ∧ (Engine.pair true "A1").source.asAsked = false ∧
      ((fresh (.pair true "A1")).evaluateFormula "=Sheet1!A1:(Sheet1!B1)" Workbook.pairValue).1 =
        ((fresh (.pair true "A1")).evaluateFormula "=SHEET1!A1:(SHEET1!B1)"
          Workbook.pairValue).1 := by
  have hbody : CellContent.formulaBody "=Sheet1!A1:(Sheet1!B1)".toList =
      joinedChars .sheet1 .sheet1 := by decide
  have hbody' : CellContent.formulaBody "=SHEET1!A1:(SHEET1!B1)".toList =
      joinedChars .raisedSheet1 .raisedSheet1 := by decide
  have h := respelled_joinedChars raisedSheet1_respells raisedSheet1_respells
  rw [← hbody, ← hbody'] at h
  obtain ⟨-, -, hvalues⟩ := @sheets_in_any_case (.pair true "A1") _ _ rfl rfl h
  refine ⟨rfl, rfl, hvalues _ (joinedExpr "SHEET1" "SHEET1") _ ofText_joined (by decide +kernel) ?_⟩
  intro x hx
  obtain rfl : Workbook.pairValue = x := Except.ok.inj hx
  exact ⟨spellsAlike_joinedExpr _, spellsAlike_joinedExpr _, 1, by decide, _, evaluate_joined⟩

theorem startsReference_rowOf (again : Qualifier) :
    ∀ c ∈ (rowOf .sheet1 again).chars.head?, StartsReference c := by
  rintro c ⟨⟩
  exact .inr (.inr (.inr (.inr (by decide))))

theorem ofText_rowOf (again : Qualifier) : Expr.ofText (rowOf .sheet1 again).text = .ok e ↔
    (rowOf .sheet1 again).Readable ∧ (rowOf .sheet1 again).expr = e :=
  Parts.exprOfText_text (Token.ofText_parts (startsReference_rowOf again))

theorem readable_rowOf : (rowOf .sheet1 .sheet1).Readable where
  sameSheets := by
    rintro again ⟨⟩
    rfl
  noColon := by
    rintro sheet ⟨⟩
    decide
  oneMark := by simp [Parts.OneMark, rowOf, Parts.corners, Corner.rowMarks]

set_option maxRecDepth 4000 in
/-- A reference that repeats its sheet in another case is not read, and cells that are joined
behind two spellings of their sheet give an error value. -/
theorem spellings_compared :
    (Respelled (CellContent.formulaBody "Sheet1!A1:Sheet1!B1".toList)
        (CellContent.formulaBody "Sheet1!A1:SHEET1!B1".toList) ∧
      (∃ e, Expr.ofText "Sheet1!A1:Sheet1!B1" = .ok e) ∧
      ¬ ∃ e, Expr.ofText "Sheet1!A1:SHEET1!B1" = .ok e) ∧
    Respelled (CellContent.formulaBody "=Sheet1!A1:(Sheet1!B1)".toList)
        (CellContent.formulaBody "=Sheet1!A1:(SHEET1!B1)".toList) ∧
      ((fresh (.pair true "A1")).evaluateFormula "=Sheet1!A1:(Sheet1!B1)" Workbook.pairValue).1 =
        .ok (.table ⟨1, 2, #[.bool true, .bool true]⟩) ∧
      ((fresh (.pair true "A1")).evaluateFormula "=Sheet1!A1:(SHEET1!B1)" Workbook.pairValue).1 =
        .ok (.scalar (.error .value)) := by
  constructor
  · have hrow : (rowOf .sheet1 .sheet1).text = "Sheet1!A1:Sheet1!B1" := by decide +kernel
    have hmixed : (rowOf .sheet1 .raisedSheet1).text = "Sheet1!A1:SHEET1!B1" := by decide +kernel
    rw [← hrow, ← hmixed]
    refine ⟨?_, ⟨_, (ofText_rowOf .sheet1).mpr ⟨readable_rowOf, rfl⟩⟩, ?_⟩
    · simp only [Parts.text, String.toList_ofList, Parts.formulaBody_chars]
      exact .ofParts (startsReference_rowOf _)
        (.pair (.some sheet1_respells) (.some raisedSheet1_respells))
    · rintro ⟨e, he⟩
      have hsame := ((ofText_rowOf .raisedSheet1).mp he).1.sameSheets .raisedSheet1 rfl
      exact absurd hsame (by decide)
  have hcells : CellContent.formulaBody "=Sheet1!A1:(Sheet1!B1)".toList =
      joinedChars .sheet1 .sheet1 := by decide +kernel
  have hmixed : CellContent.formulaBody "=Sheet1!A1:(SHEET1!B1)".toList =
      joinedChars .sheet1 .raisedSheet1 := by decide +kernel
  have hx : (Engine.pair true "A1").source.canonical Workbook.pairValue = .ok Workbook.pairValue :=
    rfl
  have hother : Expr.ofText "=Sheet1!A1:(SHEET1!B1)" = .ok (joinedExpr "Sheet1" "SHEET1") := by decide +kernel
  have hvalue : ((joinedExpr "Sheet1" "SHEET1").value .builtins
      ⟨(Engine.pair true "A1").source, Workbook.pairValue, 0⟩).evaluate
        ((Engine.pair true "A1").plain 0) = some (.ok (.scalar (.error .value))) := rfl
  refine ⟨?_, ?_, ?_⟩
  · rw [hcells, hmixed]
    exact respelled_joinedChars sheet1_respells raisedSheet1_respells
  · exact evaluateFormula_plain (uniform rfl) (inquiry_formula hx ofText_joined) evaluate_joined
      (by decide)
  · exact evaluateFormula_plain (uniform rfl) (inquiry_formula hx hother) hvalue (by decide)

end Evaluator

end Spreadsheet
