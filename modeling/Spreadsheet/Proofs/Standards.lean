-- SUMMARY: What is asked of all areas and values of an evaluation, and what upholds it.
import Spreadsheet.Proofs.Contracts
import Spreadsheet.Proofs.Invalidation

/-!
# Standards

A standard asks something of areas, of values and of tables of used cells. Where the operators, the
functions and what is read of sheets uphold it, so does whatever an expression comes to, and so do
the arguments that its functions get on the way, by recursion on the expression.
-/

namespace Spreadsheet

open Inquiry

/-- What is asked of areas, of values and of tables of used cells. -/
structure Standard where
  area : Area → Prop := fun _ => True
  value : Value → Prop := fun _ => True
  used : Table → Prop := fun _ => True

/-! ## What upholds a standard -/

def Operand.Upholds (std : Standard) : Operand → Prop
  | .reference r => ∀ area ∈ r.areas, std.area area
  | .value v => std.value v

def Argument.Upholds (std : Standard) : Argument → Prop
  | .value v => std.value v
  | .areas tables => ∀ t ∈ tables, std.used t
  | .reference r => ∀ area ∈ r.areas, std.area area
  | .lazy => True

/-- What is passed on upholds the standard if the value that was asked for does. -/
def Reply.Upholds (std : Standard) : Reply → Prop
  | .value v => std.value v
  | .force _ resume => ∀ v, std.value v → std.value (resume v)

/-- What the function gives upholds the standard if its arguments do. -/
def Function.Upholds (std : Standard) (f : Function) : Prop :=
  match f.implementation with
  | .pure g => ∀ args, (∀ arg ∈ args, arg.Upholds std) → std.value (g args)
  | .contextual g => ∀ site args, (∀ arg ∈ args, arg.Upholds std) → (g site args).Upholds std
  | .reference g => ∀ site args, site.Keeps std.area → (∀ arg ∈ args, arg.Upholds std) →
    (g site args).Upholds std
  | .abort => True

/-- Constants that a conversion or a failed computation gives uphold the standard. -/
structure Standard.Grounded (std : Standard) : Prop where
  blank : std.value .blank
  bool : ∀ b, std.value (.bool b)
  text : ∀ s, std.value (.text s)
  error : ∀ e, std.value (.error e)
  number : ∀ v x, std.value v → v.toNumber = .ok x → std.value (.number x)
  used : ∀ t, std.value (.table t) → std.used t

/-- Operators keep the standard as well. -/
structure Standard.Closed (std : Standard) : Prop extends std.Grounded where
  unary : ∀ op v, std.value v → std.value (UnaryOp.onValue op v)
  binary : ∀ op v w, std.value v → std.value w → std.value (BinaryOp.onValues op v w)

/-- What is read at the site upholds the standard as long as the answers fit. -/
structure Site.Upholds (site : Site) (std : Standard) (contract : Contract) : Prop where
  fails : ∀ failure, contract.fails failure
  keeps : site.Keeps std.area
  area : ∀ area, std.area area → (site.readArea area).Meets contract std.value
  used : ∀ area, std.area area → (site.readUsed area).Meets contract std.used

/-- What is written at the node upholds the standard on the sheets that the site finds. -/
structure Site.Allows (site : Site) (std : Standard) (node : Formula.Expr) : Prop where
  writes : site.Writes std.area node
  literal : ∀ s, node = .literal s → std.value (.scalar s)
  table : ∀ t, node = .table t → std.value (.table t)

variable {std : Standard} {site : Site} {contract : Contract} {registry : Registry}

/-! ## Reading -/

namespace Site.Upholds

variable (h : site.Upholds std contract) (hstd : std.Grounded)
include h hstd

theorem meets_read {o : Operand} (ho : o.Upholds std) : (site.read o).Meets contract std.value := by
  cases o with
  | value v => exact ho
  | reference r =>
      obtain ⟨areas⟩ := r
      match areas with
      | [] => exact hstd.error _
      | [area] => exact h.area area (ho area List.mem_cons_self)
      | _ :: _ :: _ => exact hstd.error _

omit hstd in
theorem meets_readAllUsed {areas : List Area} (hareas : ∀ area ∈ areas, std.area area) :
    (site.readAllUsed areas).Meets contract fun tables => ∀ t ∈ tables, std.used t := by
  induction areas with
  | nil => exact List.forall_mem_nil _
  | cons area areas ih =>
      obtain ⟨harea, hareas⟩ := List.forall_mem_cons.mp hareas
      refine (h.used area harea).bind fun t ht => ?_
      exact (ih hareas).bind fun ts hts => List.forall_mem_cons.mpr ⟨ht, hts⟩

/-! ## Arguments -/

theorem meets_prepareScalar {α : Type} {convert : Scalar → Except ErrorValue α}
    {result : α → Value} {o : Operand} (ho : o.Upholds std)
    (hresult : ∀ v a, std.value v → convert v.toScalar = .ok a → std.value (result a)) :
    (site.prepareScalar convert result o).Meets contract
      fun p => ∀ arg, p = .ok arg → arg.Upholds std := by
  refine (h.meets_read hstd ho).bind fun v hv arg harg => ?_
  obtain ⟨a, ha, rfl⟩ := map_eq_ok.mp harg
  exact hresult v a hv ha

theorem meets_prepare (kind : ParamKind) {operand : Unit → Inquiry Operand}
    (ho : (operand ()).Meets contract (Operand.Upholds std)) :
    (site.prepare kind operand).Meets contract fun p => ∀ arg, p = .ok arg → arg.Upholds std := by
  cases kind with
  | any =>
      refine ho.bind fun o ho => (h.meets_read hstd ho).bind fun v hv => ?_
      rintro _ ⟨⟩
      exact hv
  | number =>
      exact ho.bind fun o ho => h.meets_prepareScalar hstd ho hstd.number
  | text =>
      exact ho.bind fun o ho => h.meets_prepareScalar hstd ho fun _ s _ _ => hstd.text s
  | bool =>
      exact ho.bind fun o ho => h.meets_prepareScalar hstd ho fun _ b _ _ => hstd.bool b
  | areas =>
      refine ho.bind fun o ho => ?_
      cases o with
      | reference r =>
          refine (h.meets_readAllUsed ho).bind fun tables htables => ?_
          rintro _ ⟨⟩
          exact htables
      | value v =>
          cases v with
          | scalar s =>
              rintro _ ⟨⟩
              exact ho
          | table t =>
              rintro _ ⟨⟩
              exact List.forall_mem_singleton.mpr (hstd.used t ho)
  | reference =>
      refine ho.bind fun o ho => ?_
      cases o with
      | reference r =>
          rintro _ ⟨⟩
          exact ho
      | value v =>
          rintro _ ⟨⟩
          exact ho
  | lazy =>
      rintro _ ⟨⟩
      trivial

/-! ## Calls -/

theorem meets_call {f : Function} (hf : f.Upholds std) {args : List Argument}
    (hargs : ∀ arg ∈ args, arg.Upholds std) {expression : Nat → Inquiry Value}
    (hexpression : ∀ i, (expression i).Meets contract std.value) :
    (f.call site args expression).Meets contract (Operand.Upholds std) := by
  unfold Function.Upholds at hf
  unfold Function.call
  split
  · rename_i g hg
    simp only [hg] at hf
    exact hf args hargs
  · rename_i g hg
    simp only [hg] at hf
    have hreply := hf site args hargs
    split
    · rename_i v hv
      rw [hv] at hreply
      exact hreply
    · rename_i i resume hforce
      rw [hforce] at hreply
      have hforced : (Argument.forced (fun () => expression i) args[i]?).Meets contract
          std.value := by
        unfold Argument.forced
        split
        · exact hexpression i
        · rename_i v hv
          exact hargs _ (List.mem_of_getElem? hv)
        · exact hstd.blank
      exact hforced.bind fun v hv => hreply v hv
  · rename_i g hg
    simp only [hg] at hf
    exact hf site args h.keeps hargs
  · exact h.fails _

end Site.Upholds

/-! ## Expressions -/

namespace Formula.Expr

set_option linter.unusedSectionVars false

theorem upholds_between (hstd : std.Grounded) (hkeeps : site.Keeps std.area) {a b : Operand}
    (ha : a.Upholds std) (hb : b.Upholds std) : (a.between b).Upholds std := by
  obtain ⟨left, right, area, rfl, rfl, harea, heq⟩ | ⟨e, heq⟩ := a.between_cases b
  · rw [heq]
    exact List.forall_mem_singleton.mpr (hkeeps.bounding left right area
      (ha left List.mem_cons_self) (hb right List.mem_cons_self) harea)
  · rw [heq]
    exact hstd.error e

variable (h : site.Upholds std contract) (hclosed : std.Closed)
  (hregistry : ∀ f ∈ registry.functions, f.Upholds std)
include h hclosed hregistry

mutual

theorem meets_operand (e : Expr) (he : ∀ node ∈ e.nodes, site.Allows std node) :
    (e.operand registry site).Meets contract (Operand.Upholds std) := by
  match e with
  | .literal s => exact (he _ List.mem_cons_self).literal s rfl
  | .table t => exact (he _ List.mem_cons_self).table t rfl
  | .cell sheet? coord =>
      have hwrites := (he _ List.mem_cons_self).writes
      unfold operand
      cases hs : site.sheet? sheet? with
      | none => exact hclosed.error _
      | some sheet => exact List.forall_mem_singleton.mpr (hwrites sheet hs)
  | .area sheet? corners =>
      have hwrites := (he _ List.mem_cons_self).writes
      unfold operand
      cases hs : site.sheet? sheet? with
      | none => exact hclosed.error _
      | some sheet => exact List.forall_mem_singleton.mpr (hwrites sheet hs)
  | .name word =>
      have hnamed := h.keeps.named word
      change (site.named word).Upholds std
      revert hnamed
      unfold Site.named
      split
      · exact fun _ => hclosed.error _
      · split
        · exact id
        · exact fun _ => hclosed.error _
  | .unary op e =>
      simp only [nodes, List.forall_mem_cons] at he
      refine (meets_operand e he.2).bind fun o ho => ?_
      exact (h.meets_read hclosed.toGrounded ho).bind fun v hv => hclosed.unary op v hv
  -- the range operator joins areas, and the other operators read their operands first
  | .binary .range l r =>
      simp only [nodes, List.forall_mem_cons, List.forall_mem_append] at he
      refine (meets_operand l he.2.1).bind fun a ha => ?_
      refine (meets_operand r he.2.2).bind fun b hb => ?_
      exact upholds_between hclosed.toGrounded h.keeps ha hb
  | .binary (.comparison _) l r | .binary .concat l r | .binary (.arithmetic _) l r =>
      simp only [nodes, List.forall_mem_cons, List.forall_mem_append] at he
      refine (meets_operand l he.2.1).bind fun a ha => ?_
      refine (h.meets_read hclosed.toGrounded ha).bind fun v hv => ?_
      refine (meets_operand r he.2.2).bind fun b hb => ?_
      exact (h.meets_read hclosed.toGrounded hb).bind fun w hw => hclosed.binary _ v w hv hw
  | .union items =>
      simp only [nodes, List.forall_mem_cons] at he
      exact meets_areasOf items he.2 (List.forall_mem_nil _)
  | .call function es =>
      simp only [nodes, List.forall_mem_cons] at he
      unfold operand
      cases hf : registry.get? function with
      | none => exact hclosed.error _
      | some f =>
          dsimp only
          cases f.checkCount es.length with
          | error failure => exact h.fails failure
          | ok _ =>
              refine (meets_argumentsOf f 0 es he.2).bind fun r hr => ?_
              cases r with
              | error e => exact hclosed.error e
              | ok args =>
                  have hmem := List.mem_of_find?_eq_some hf
                  exact h.meets_call hclosed.toGrounded (hregistry f hmem) (hr args rfl)
                    fun i => meets_valueAt i es he.2

theorem meets_areasOf (es : List Expr) (he : ∀ node ∈ nodesOf es, site.Allows std node)
    {areas : List Area} (hareas : ∀ area ∈ areas, std.area area) :
    (areasOf registry site es areas).Meets contract (Operand.Upholds std) := by
  match es with
  | [] => exact hareas
  | e :: es =>
      simp only [nodesOf, List.forall_mem_append] at he
      refine (meets_operand e he.1).bind fun o ho => ?_
      match o with
      | .reference r =>
          exact meets_areasOf es he.2 (List.forall_mem_append.mpr ⟨hareas, ho⟩)
      | .value (.scalar s) => cases s <;> exact hclosed.error _
      | .value (.table t) => exact hclosed.error _

/-- The arguments that a function gets uphold the standard. -/
theorem meets_argumentsOf (f : Function) (index : Nat) (es : List Expr)
    (he : ∀ node ∈ nodesOf es, site.Allows std node) :
    (argumentsOf registry site f index es).Meets contract
      fun r => ∀ args, r = .ok args → ∀ arg ∈ args, arg.Upholds std := by
  match es with
  | [] =>
      rintro _ ⟨⟩
      exact List.forall_mem_nil _
  | e :: es =>
      simp only [nodesOf, List.forall_mem_append] at he
      refine (h.meets_prepare hclosed.toGrounded (f.paramKind index) (meets_operand e he.1)).bind
        fun p hp => ?_
      cases p with
      | error e => exact nofun
      | ok arg =>
          refine (meets_argumentsOf f (index + 1) es he.2).bind fun r hr args hargs => ?_
          obtain ⟨rest, hrest, rfl⟩ := map_eq_ok.mp hargs
          exact List.forall_mem_cons.mpr ⟨hp arg rfl, hr rest hrest⟩

/-- So does the value of an argument that was left unevaluated. -/
theorem meets_valueAt (index : Nat) (es : List Expr)
    (he : ∀ node ∈ nodesOf es, site.Allows std node) :
    (valueAt registry site index es).Meets contract std.value := by
  match index, es with
  | _, [] => exact hclosed.blank
  | 0, e :: es =>
      simp only [nodesOf, List.forall_mem_append] at he
      exact (meets_operand e he.1).bind fun o ho => h.meets_read hclosed.toGrounded ho
  | index + 1, e :: es =>
      simp only [nodesOf, List.forall_mem_append] at he
      exact meets_valueAt index es he.2

end

theorem meets_value (e : Expr) (he : ∀ node ∈ e.nodes, site.Allows std node) :
    (e.value registry site).Meets contract std.value :=
  (meets_operand h hclosed hregistry e he).bind fun _ ho => h.meets_read hclosed.toGrounded ho

end Formula.Expr

/-! ## Runs -/

/-- The contract allows all there is. -/
structure Contract.Open (contract : Contract) : Prop where
  notes : ∀ r, contract.notes r
  asks : ∀ c, contract.asks c
  fails : ∀ failure, contract.fails failure

/-- The contract allows all there is, and the answers it relies on uphold the standard. -/
structure Contract.Trusts (contract : Contract) (std : Standard) : Prop extends contract.Open where
  fits : ∀ c v, contract.fits c v → std.value v

/-- Cells are expected to have values that uphold the standard. -/
def Standard.expectation (std : Standard) : Expectation where
  fits _ v := std.value v

theorem Standard.Closed.trusts_below (hclosed : std.Closed) (chain : List CellAddress) :
    (std.expectation.below chain).Trusts std where
  notes _ := trivial
  asks _ := ⟨trivial, fun _ _ => .single trivial⟩
  fits _ v h := by
    obtain ⟨-, rfl⟩ | ⟨-, h⟩ := h
    · exact hclosed.error _
    · exact h
  fails _ := trivial

/-- What is written in the expression upholds the standard at every site. -/
def Formula.Expr.Upholds (std : Standard) (e : Expr) : Prop :=
  ∀ (site : Site), ∀ node ∈ e.nodes, site.Allows std node

/-- The functions, what is read of the sheets and the scalars stored there uphold the standard,
which asks nothing of areas. -/
structure Engine.Provides (engine : Engine) (std : Standard) : Prop where
  closed : std.Closed
  areas : ∀ area, std.area area
  functions : ∀ f ∈ engine.registry.functions, f.Upholds std
  reads : ∀ (site : Site) (contract : Contract), site.source = engine.source →
    contract.Trusts std → site.Upholds std contract
  stored : ∀ c content, engine.source.workbook.read c = .ok content →
    std.value (.scalar content.value)

/-- The formulas that the workbook stores uphold the standard as well. -/
structure Engine.Sustains (engine : Engine) (std : Standard) : Prop
    extends engine.Provides std where
  formulas : ∀ c e, engine.holding c = .formula e → e.Upholds std

/-- All formulas that can be entered uphold the standard as well. -/
structure Engine.Upholds (engine : Engine) (std : Standard) : Prop
    extends engine.Provides std where
  allows : ∀ (site : Site) text e, engine.registry.readFormula text = .ok e →
    ∀ node ∈ e.nodes, site.Allows std node

/-- The formula that is asked for upholds the standard. -/
def Query.Upholds (engine : Engine) (std : Standard) : Query → Prop
  | .formula entered _ => ∀ e, engine.registry.readFormula entered = .ok e → e.Upholds std
  | .cell _ | .area _ => True

namespace Engine

variable {engine : Engine}

theorem Upholds.sustains (h : engine.Upholds std) : engine.Sustains std where
  toProvides := h.toProvides
  formulas _ _ he site := by
    obtain ⟨text, hread⟩ := readFormula_of_holding he
    exact h.allows site text _ hread

theorem Upholds.query (h : engine.Upholds std) (query : Query) : query.Upholds engine std := by
  cases query with
  | cell c => trivial
  | area area => trivial
  | formula entered c => exact fun e he site => h.allows site entered e he

namespace Sustains

variable (h : engine.Sustains std)
include h

theorem fulfils : engine.Fulfils std.expectation where
  tooDeep := trivial
  settled c r _ hr := by
    cases r with
    | error failure => trivial
    | ok v =>
        obtain ⟨content, hread, -, rfl⟩ := read_of_result hr
        exact h.stored c content hread
  formula chain c e _ he _ := by
    have htrusts : (std.expectation.contract chain c).Trusts std :=
      ⟨⟨fun _ => trivial, fun _ => ⟨trivial, trivial⟩, fun _ => trivial⟩,
        (h.closed.trusts_below (c :: chain)).fits⟩
    exact e.meets_value (h.reads ⟨engine.source, c, _⟩ _ rfl htrusts) h.closed h.functions
      (h.formulas c e he _)

theorem meets_query {query : Query} (hquery : query.Upholds engine std) {q : Inquiry Value}
    (hq : query.inquiry engine = .ok q) : q.Meets (std.expectation.below []) std.value := by
  have htrusts := h.closed.trusts_below []
  cases query with
  | cell c =>
      simp only [Query.inquiry, bind_eq_ok, pure_eq_ok] at hq
      obtain ⟨c', -, rfl⟩ := hq
      exact ⟨htrusts.asks c', htrusts.fits c'⟩
  | area area =>
      simp only [Query.inquiry, bind_eq_ok, pure_eq_ok] at hq
      obtain ⟨corner, -, rfl⟩ := hq
      exact (h.reads ⟨engine.source, corner, 0⟩ _ rfl htrusts).area _ (h.areas _)
  | formula entered c =>
      simp only [Query.inquiry, bind_eq_ok, pure_eq_ok] at hq
      obtain ⟨c', -, e, he, rfl⟩ := hq
      exact e.meets_value (h.reads ⟨engine.source, c', 0⟩ _ rfl htrusts) h.closed h.functions
        (hquery e he _)

end Sustains

end Engine

namespace Evaluator

variable {ev ev' : Evaluator} {op : Operation} {events : List Event}

/-- What is stored, and what is remembered, upholds the standard. -/
structure Sustains (ev : Evaluator) (std : Standard) : Prop where
  engine : ev.toEngine.Sustains std
  formulas : ev.FormulasRead ev.memory
  remembered : ∀ (c : CellAddress) (v : Value), ev.memory.values[c]? = some v → std.value v

/-- What is computed with, and what is remembered, upholds the standard. -/
structure Upholds (ev : Evaluator) (std : Standard) : Prop where
  engine : ev.toEngine.Upholds std
  formulas : ev.FormulasRead ev.memory
  remembered : ∀ (c : CellAddress) (v : Value), ev.memory.values[c]? = some v → std.value v

namespace Sustains

/-- So does every reply. -/
theorem value_of_reply (h : ev.Sustains std) {query : Query}
    (hquery : query.Upholds ev.toEngine std) {v : Value} (hv : (ev.reply query).1 = .ok v) :
    std.value v := by
  cases hq : query.inquiry ev.toEngine with
  | error failure =>
      obtain ⟨formulas, hreply, -, -⟩ := reply_error h.formulas hq
      rw [hreply] at hv
      cases hv
  | ok q =>
      obtain ⟨-, houtcome⟩ := reply_fulfils h.engine.fulfils h.formulas
        (fun c v _ hc => h.remembered c v hc) hq (h.engine.meets_query hquery hq)
      rw [hv] at houtcome
      exact houtcome

/-- Operations leave nothing remembered that does not. -/
theorem remembered_of_step (h : ev.Sustains std)
    (hquery : ∀ query, op = .ask query → query.Upholds ev.toEngine std)
    (hstep : ev.Step op events ev') (c : CellAddress) (v : Value)
    (hv : ev'.memory.values[c]? = some v) : std.value v := by
  cases hstep with
  | idle => exact h.remembered c v hv
  | answered hq hruns =>
      obtain ⟨hm, -⟩ := hruns.fulfils h.engine.fulfils (fun c v _ hc => h.remembered c v hc)
        (h.engine.meets_query (hquery _ rfl) hq)
      exact hm c v trivial hv
  | written _ _ _ => exact h.remembered c v (Memory.values_of_invalidate hv)
  | forgotten => simp [forgetValues] at hv

theorem fresh {engine : Engine} (h : engine.Sustains std) : (fresh engine).Sustains std :=
  ⟨h, Engine.formulasRead_empty, fun c v hv => by simp [Evaluator.fresh] at hv⟩

end Sustains

namespace Upholds

theorem sustains (h : ev.Upholds std) : ev.Sustains std :=
  ⟨h.engine.sustains, h.formulas, h.remembered⟩

theorem value_of_reply (h : ev.Upholds std) {query : Query} {v : Value}
    (hv : (ev.reply query).1 = .ok v) : std.value v :=
  h.sustains.value_of_reply (h.engine.query query) hv

theorem step (h : ev.Upholds std) (hstep : ev.Step op events ev')
    (hread : ev'.FormulasRead ev'.memory) (hengine : ev'.toEngine.Upholds std) :
    ev'.Upholds std :=
  ⟨hengine, hread, h.sustains.remembered_of_step (fun query _ => h.engine.query query) hstep⟩

theorem fresh {engine : Engine} (h : engine.Upholds std) : (fresh engine).Upholds std :=
  ⟨h, Engine.formulasRead_empty, (Sustains.fresh h.sustains).remembered⟩

end Upholds

end Evaluator

end Spreadsheet
