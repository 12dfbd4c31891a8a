-- SUMMARY: Where constants and stored numbers are finite, so is every number that is computed.
import Spreadsheet.Proofs.Doubles
import Spreadsheet.Proofs.Failures
import Spreadsheet.Proofs.Rectangles

/-!
# Finite numbers

A number that is computed is checked: an infinite one, or one that is none, is an error. Text is
read as finite numbers only, and what is not checked, negation, percentages and counts, keeps finite
numbers finite. So no other numbers come up unless a formula or a cell holds one from the start. A
formula can: a constant is read without a check, and one that is too large is infinite.
-/

namespace Spreadsheet

/-! ## Scalars -/

theorem Number.isFinite_ofText? {s : String} {x : Float} (h : ofText? s = some x) :
    x.isFinite := by
  unfold ofText? ofChars? at h
  dsimp only at h
  exact (Option.filter_eq_some_iff.mp h).2

namespace Scalar

variable {s : Scalar} {x : Float}

/-- A number has to be finite. Anything else is. -/
def Finite : Scalar → Prop
  | .number x => x.isFinite
  | .blank | .bool _ | .text _ | .error _ => True

theorem ofResult_cases (x : Float) :
    x.isFinite ∧ ofResult x = .number x ∨ ¬ x.isFinite ∧ ofResult x = .error .number := by
  unfold ofResult
  split
  · exact .inl ⟨‹_›, rfl⟩
  · exact .inr ⟨‹_›, rfl⟩

theorem finite_ofResult (x : Float) : (ofResult x).Finite := by
  obtain ⟨hx, h⟩ | ⟨-, h⟩ := ofResult_cases x
  · rw [h]
    exact hx
  · rw [h]
    trivial

theorem Finite.isFinite (h : s.Finite) (hx : s.toNumber = .ok x) : x.isFinite := by
  cases s with
  | blank =>
      cases hx
      rfl
  | bool b =>
      cases hx
      cases b <;> rfl
  | number y =>
      cases hx
      exact h
  | text text =>
      simp only [toNumber] at hx
      split at hx
      · rename_i y hy
        cases hx
        exact Number.isFinite_ofText? hy
      · cases hx
  | error e => cases hx

end Scalar

/-! ## Operators -/

namespace Arithmetic

/-- What doubles come to, which may be infinite or no number. -/
def onNumbers : Arithmetic → Float → Float → Float
  | .add, x, y => x + y
  | .subtract, x, y => x - y
  | .multiply, x, y => x * y
  | .divide, x, y => x / y
  | .power, x, y => Float.pow x y

/-- What doubles come to if it is finite, and otherwise an error in its place. -/
inductive Result (op : Arithmetic) (x y : Float) : Scalar → Prop where
  | finite (h : (op.onNumbers x y).isFinite) : Result op x y (.number (op.onNumbers x y))
  /-- The doubles come to no finite number, or zero is raised to the power of zero. -/
  | fails (h : ¬ (op.onNumbers x y).isFinite ∨ op = .power ∧ x == 0 ∧ y == 0) :
      Result op x y (.error .number)
  /-- A number is divided by zero, or zero is raised to a negative power. -/
  | dividesByZero (h : op = .divide ∧ y == 0 ∨ op = .power ∧ x == 0 ∧ y < 0) :
      Result op x y (.error .divisionByZero)

theorem Result.finite_scalar {op : Arithmetic} {x y : Float} {s : Scalar} (h : op.Result x y s) :
    s.Finite := by
  cases h with
  | finite h => exact h
  | fails _ => trivial
  | dividesByZero _ => trivial

theorem result_ofResult (op : Arithmetic) (x y : Float) :
    op.Result x y (.ofResult (op.onNumbers x y)) := by
  obtain ⟨hfinite, h⟩ | ⟨hinfinite, h⟩ := Scalar.ofResult_cases (op.onNumbers x y) <;> rw [h]
  · exact .finite hfinite
  · exact .fails (.inl hinfinite)

theorem result_apply (op : Arithmetic) (x y : Float) : op.Result x y (op.apply x y) := by
  have hresult := result_ofResult op x y
  cases op with
  | add => exact hresult
  | subtract => exact hresult
  | multiply => exact hresult
  | divide =>
      unfold apply
      dsimp only
      split
      · exact .dividesByZero (.inl ⟨rfl, ‹_›⟩)
      · exact hresult
  | power =>
      unfold apply
      dsimp only
      split
      · rename_i hzero
        exact .fails (.inr ⟨rfl, Bool.and_eq_true_iff.mp hzero⟩)
      · split
        · rename_i hnegative
          have hboth : x == 0 ∧ y < 0 := by simpa using hnegative
          exact .dividesByZero (.inr ⟨rfl, hboth⟩)
        · exact hresult

end Arithmetic

/-- Whatever the operands are. -/
theorem BinaryOp.finite_onScalars (op : BinaryOp) (l r : Scalar) : (op.onScalars l r).Finite := by
  cases op with
  | arithmetic op =>
      unfold onScalars
      dsimp only
      split
      · exact (op.result_apply _ _).finite_scalar
      · trivial
      · trivial
  | comparison op =>
      unfold onScalars
      dsimp only
      split <;> trivial
  | concat =>
      unfold onScalars
      dsimp only
      split <;> trivial
  | range => trivial

theorem Scalar.Finite.onScalar {s : Scalar} (h : s.Finite) (op : UnaryOp) :
    (op.onScalar s).Finite := by
  unfold UnaryOp.onScalar
  split
  · rename_i x hx
    cases op with
    | negate => exact Double.isFinite_neg (h.isFinite hx)
    | percent => exact Double.isFinite_div_hundred (h.isFinite hx)
  · trivial

/-! ## Values -/

namespace Value

variable {v : Value} {s : Scalar} {t : Table}

/-- The numbers in the value are finite. -/
def Finite (v : Value) : Prop := ∀ s ∈ v.scalars, s.Finite

theorem finite_scalar : (Value.scalar s).Finite ↔ s.Finite := List.forall_mem_singleton

theorem Finite.get? (h : (Value.table t).Finite) {row col : Nat} (hs : t.get? row col = some s) :
    s.Finite := by
  unfold Table.get? at hs
  split at hs
  · exact h s (Array.mem_toList_iff.mpr (Array.mem_of_getElem? hs))
  · cases hs

theorem Finite.toTable (h : v.Finite) : (Value.table v.toTable).Finite := by
  cases v <;> exact h

theorem Finite.toScalar (h : v.Finite) : v.toScalar.Finite := by
  cases v with
  | scalar s => exact finite_scalar.mp h
  | table t =>
      unfold Value.toScalar Table.topLeft
      dsimp only
      cases hs : t.cells[0]? with
      | none => trivial
      | some s => exact h s (Array.mem_toList_iff.mpr (Array.mem_of_getElem? hs))

theorem finite_ofFn {rows cols : Nat} {f : Nat → Nat → Scalar} (h : ∀ row col, (f row col).Finite) :
    (Value.table (.ofFn rows cols f)).Finite := by
  intro s hs
  obtain ⟨i, rfl⟩ := Array.mem_ofFn.mp (Array.mem_toList_iff.mp hs)
  exact h _ _

theorem finite_map {f : Scalar → Scalar} (h : ∀ s ∈ v.scalars, (f s).Finite) :
    (v.map f).Finite := by
  cases v with
  | scalar s => exact finite_scalar.mpr (h s List.mem_cons_self)
  | table t =>
      intro s hs
      obtain ⟨s', hs', rfl⟩ := Array.mem_map.mp (Array.mem_toList_iff.mp hs)
      exact h s' (Array.mem_toList_iff.mpr hs')

/-- Whatever the operands are. -/
theorem finite_onValues (op : BinaryOp) (v w : Value) : (op.onValues v w).Finite := by
  cases v with
  | scalar l =>
      cases w with
      | scalar r => exact finite_scalar.mpr (op.finite_onScalars l r)
      | table r => exact finite_map (v := .table r) fun s _ => op.finite_onScalars l s
  | table l =>
      cases w with
      | scalar r => exact finite_map (v := .table l) fun s _ => op.finite_onScalars s r
      | table r =>
          refine finite_ofFn fun row col => ?_
          split
          · exact op.finite_onScalars _ _
          · trivial

theorem Finite.sliceOfTable (h : v.Finite) (part : Function.Slice) :
    (Function.sliceOfTable v.toTable part).Finite := by
  have hcell (row col : Nat) : ((v.toTable.get? row col).getD .blank).Finite := by
    cases hs : v.toTable.get? row col with
    | none => trivial
    | some s => exact h.toTable.get? hs
  unfold Function.sliceOfTable Table.row? Table.column?
  cases part with
  | cell row col =>
      dsimp only
      cases hs : v.toTable.get? row col with
      | none => exact finite_scalar.mpr trivial
      | some s => exact finite_scalar.mpr (h.toTable.get? hs)
  | row row =>
      dsimp only
      split
      · exact finite_ofFn fun _ col => hcell row col
      · exact finite_scalar.mpr trivial
  | column col =>
      dsimp only
      split
      · exact finite_ofFn fun row _ => hcell row col
      · exact finite_scalar.mpr trivial

end Value

/-! ## The standard -/

/-- All numbers are finite, those of used cells too. -/
def Standard.finite : Standard where
  value := Value.Finite
  used t := (Value.table t).Finite

theorem Standard.finite_cellwise : Standard.finite.Cellwise where
  blank := Value.finite_scalar.mpr trivial
  bool _ := Value.finite_scalar.mpr trivial
  text _ := Value.finite_scalar.mpr trivial
  error _ := Value.finite_scalar.mpr trivial
  number _ _ hv hx := Value.finite_scalar.mpr (hv.toScalar.isFinite hx)
  used _ ht := ht
  areas _ := trivial
  result x := Value.finite_scalar.mpr (Scalar.finite_ofResult x)
  count n := Value.finite_scalar.mpr (Double.isFinite_ofCount n)
  cells _ ht s hs := Value.finite_scalar.mpr (ht s hs)
  toScalar _ hv := Value.finite_scalar.mpr hv.toScalar
  map _ _ hv hf := Value.finite_map fun s hs =>
    Value.finite_scalar.mp (hf s (Value.finite_scalar.mpr (hv s hs)))
  slice _ part hv := hv.sliceOfTable part

theorem Standard.finite_closed : Standard.finite.Closed where
  toGrounded := finite_cellwise.toGrounded
  unary op _ hv := Value.finite_map fun s hs => (hv s hs).onScalar op
  binary op v w _ _ := Value.finite_onValues op v w

namespace Site

variable {contract : Contract} {block : Area} {used : Option Area}
  (htrusts : contract.Trusts .finite)
include htrusts

theorem meets_finite_readCells {count : Nat} {read : Array Scalar}
    (hread : ∀ s ∈ read, s.Finite) :
    (readCells block used count read).Meets contract fun cells => ∀ s ∈ cells, s.Finite := by
  induction count generalizing read with
  | zero => exact hread
  | succ count ih =>
      have hpush (s : Scalar) (hs : s.Finite) : (readCells block used count (read.push s)).Meets
          contract fun cells => ∀ s ∈ cells, s.Finite := by
        refine ih fun s' hs' => ?_
        obtain hs' | rfl := Array.mem_push.mp hs'
        · exact hread s' hs'
        · exact hs
      unfold readCells
      dsimp only
      split
      · exact ⟨htrusts.asks _, fun v hv => hpush _ (htrusts.fits _ v hv).toScalar⟩
      · exact hpush _ trivial

theorem meets_finite_readBlock :
    (readBlock block used).Meets contract fun t => (Value.table t).Finite :=
  (meets_finite_readCells htrusts (by simp)).bind fun _ hcells s hs =>
    hcells s (Array.mem_toList_iff.mp hs)

theorem upholds_finite (site : Site) : site.Upholds .finite contract where
  fails := htrusts.fails
  keeps := keeps_of_forall (fun _ => trivial) site
  area area _ := by
    unfold readArea
    split
    · refine ⟨htrusts.notes _, htrusts.asks _, fun v hv => ?_⟩
      exact Value.finite_scalar.mpr (htrusts.fits _ v hv).toScalar
    · dsimp only
      refine ⟨htrusts.notes _, ?_⟩
      split
      · exact Standard.finite_cellwise.error _
      · exact (meets_finite_readBlock htrusts).bind fun t ht => ht
  used area _ := by
    unfold readUsed
    dsimp only
    refine ⟨htrusts.notes _, ?_⟩
    split
    · exact meets_finite_readBlock htrusts
    · exact Standard.finite_cellwise.blank

end Site

/-! ## Formulas and workbooks -/

namespace Formula.Expr

/-- The expression is no constant, or one with finite numbers. -/
def FiniteConstant : Expr → Prop
  | .literal s => s.Finite
  | .table t => (Value.table t).Finite
  | _ => True

/-- The numbers that are written in the expression are finite. -/
def FiniteConstants (e : Expr) : Prop := ∀ node ∈ e.nodes, node.FiniteConstant

theorem FiniteConstants.upholds {e : Expr} (h : e.FiniteConstants) : e.Upholds .finite := by
  intro site node hnode
  have hconstant := h node hnode
  refine ⟨?_, ?_, ?_⟩
  · cases node <;> first | exact fun _ _ => trivial | trivial
  · rintro s rfl
    exact Value.finite_scalar.mpr hconstant
  · rintro t rfl
    exact hconstant

end Formula.Expr

/-- The numbers that the workbook stores are finite. -/
def Workbook.Finite (book : Workbook) : Prop :=
  ∀ c content, book.read c = .ok content → content.value.Finite

theorem Workbook.Finite.write {book book' : Workbook} {a : CellAddress} {content : CellContent}
    (h : book.Finite) (hcontent : content.value.Finite)
    (hwrite : book.write a content = .ok book') : book'.Finite := by
  intro c content' hread
  obtain rfl | hold := read_of_write hwrite hread
  · exact hcontent
  · exact h c content' hold

theorem Engine.sustains_finite {engine : Engine} (hregistry : engine.registry = .builtins)
    (hbook : engine.source.workbook.Finite)
    (hformulas : ∀ c e, engine.holding c = .formula e → e.FiniteConstants) :
    engine.Sustains .finite where
  closed := Standard.finite_closed
  areas _ := trivial
  functions := hregistry ▸ Registry.builtins_cellwise Standard.finite_cellwise
  reads site _ _ htrusts := site.upholds_finite htrusts
  stored c content hread := Value.finite_scalar.mpr (hbook c content hread)
  formulas c e he := (hformulas c e he).upholds

/-! ## Evaluators -/

namespace Evaluator

open Formula

variable {ev : Evaluator} {op : Operation}

/-- The formula is one that a workbook on the way stores, or one that is asked for. -/
inductive Uses (ev : Evaluator) (ops : List Operation) (e : Expr) : Prop where
  | stored {before : List Operation} {c : CellAddress} :
      before <+: ops → (ev.after before).holding c = .formula e → Uses ev ops e
  | asked {entered : String} {cell : CellAddress} :
      .ask (.formula entered cell) ∈ ops → ev.registry.readFormula entered = .ok e → Uses ev ops e

theorem uses_of_holding {c : CellAddress} {e : Expr} (he : ev.holding c = .formula e)
    (ops : List Operation) : ev.Uses ops e :=
  @Uses.stored ev ops e [] c List.nil_prefix he

theorem Uses.append {ops : List Operation} {e : Expr} (h : ev.Uses ops e)
    (ops' : List Operation) : ev.Uses (ops ++ ops') e := by
  cases h with
  | stored hbefore he => exact .stored (hbefore.trans (List.prefix_append ops ops')) he
  | asked hop he => exact .asked (List.mem_append_left ops' hop) he

/-- What is used after some operations is used on the way of all. -/
theorem Uses.of_after (hm : ev.FormulasRead ev.memory) (ops : List Operation)
    {ops' : List Operation} {e : Expr} (h : (ev.after ops).Uses ops' e) :
    ev.Uses (ops ++ ops') e := by
  cases h with
  | stored hbefore he =>
      rw [← after_append] at he
      exact .stored ((List.prefix_append_right_inj ops).mpr hbefore) he
  | asked hop he =>
      rw [registry_after hm] at he
      exact .asked (List.mem_append_right ops hop) he

/-- The numbers that are stored and remembered are finite. -/
structure KeepsFinite (ev : Evaluator) : Prop where
  formulas : ev.FormulasRead ev.memory
  registry : ev.registry = .builtins
  book : ev.source.workbook.Finite
  remembered : ∀ (c : CellAddress) (v : Value), ev.memory.values[c]? = some v → v.Finite

theorem finite_write (hbook : ev.source.workbook.Finite) (cell : CellAddress)
    {content : CellContent} (hcontent : content.value.Finite) :
    (ev.write cell content).2.source.workbook.Finite := by
  obtain ⟨fault, h⟩ | ⟨a, book', -, hwrite, h⟩ := write_cases ev cell content
  · rw [h]
    exact hbook
  · rw [h]
    exact hbook.write hcontent hwrite

theorem finite_apply (hm : ev.FormulasRead ev.memory) (hbook : ev.source.workbook.Finite)
    (hvalue : ∀ cell value, op = .setValue cell value → value.Finite) :
    (ev.apply op).source.workbook.Finite := by
  cases op with
  | ask query =>
      change (ev.reply query).2.source.workbook.Finite
      rw [toEngine_reply]
      exact hbook
  | setValue cell value => exact finite_write hbook cell (hvalue cell value rfl)
  | setFormula cell entered =>
      change (ev.setFormula cell entered).2.source.workbook.Finite
      obtain ⟨formulas, -, ⟨-, failure, h⟩ | ⟨-, h⟩⟩ := setFormula_eq hm cell entered
      · rw [h]
        exact hbook
      · rw [h]
        refine finite_write ?_ cell trivial
        exact hbook
  | forgetValues => exact hbook

namespace KeepsFinite

theorem sustains (h : ev.KeepsFinite)
    (hstored : ∀ c e, ev.holding c = .formula e → e.FiniteConstants) : ev.Sustains .finite :=
  ⟨Engine.sustains_finite h.registry h.book hstored, h.formulas, h.remembered⟩

theorem upholds_asked {query : Query}
    (hformulas : ∀ e, ev.Uses [.ask query] e → e.FiniteConstants) :
    query.Upholds ev.toEngine .finite := by
  cases query with
  | cell c => trivial
  | area area => trivial
  | formula entered c => exact fun e he => (hformulas e (.asked List.mem_cons_self he)).upholds

theorem apply (h : ev.KeepsFinite) (hvalue : ∀ cell value, op = .setValue cell value → value.Finite)
    (hformulas : ∀ e, ev.Uses [op] e → e.FiniteConstants) : (ev.apply op).KeepsFinite := by
  obtain ⟨hstep, hread⟩ := step_apply h.formulas op
  have hsustains : ev.Sustains .finite := h.sustains fun c e he =>
    hformulas e (uses_of_holding he [op])
  refine ⟨hread, hstep.same.1.trans h.registry, finite_apply h.formulas h.book hvalue, ?_⟩
  refine hsustains.remembered_of_step ?_ hstep
  rintro query rfl
  exact upholds_asked hformulas

theorem after (h : ev.KeepsFinite) (ops : List Operation)
    (hvalues : ∀ cell value, .setValue cell value ∈ ops → value.Finite)
    (hformulas : ∀ e, ev.Uses ops e → e.FiniteConstants) : (ev.after ops).KeepsFinite := by
  induction ops generalizing ev with
  | nil => exact h
  | cons op ops ih =>
      refine ih (h.apply ?_ ?_) ?_ ?_
      · rintro cell value rfl
        exact hvalues cell value List.mem_cons_self
      · exact fun e he => hformulas e (he.append ops)
      · exact fun cell value hop => hvalues cell value (List.mem_cons_of_mem op hop)
      · exact fun e he => hformulas e (he.of_after h.formulas [op])

end KeepsFinite

/-- **Numbers stay finite.** Take a workbook whose numbers are finite, and any operations on a fresh
evaluator of it with the built-in functions that store finite numbers only. If the numbers that are
written in the formulas on the way are finite too, then so is every number in a reply and in every
remembered value. Arithmetic operators come to finite numbers in any case, whatever they are applied
to: where doubles come to none, or zero is raised to the power of zero, there is `#NUM!` instead,
and where they divide by zero, or raise it to a negative power, `#DIV/0!`. -/
theorem numbers_finite {book : Workbook} (hbook : book.Finite) (settings : Settings)
    (ops : List Operation) (query : Query)
    (hvalues : ∀ cell value, .setValue cell value ∈ ops → value.Finite)
    (hformulas : ∀ e, (fresh { source := { workbook := book }, settings }).Uses
      (ops ++ [.ask query]) e → e.FiniteConstants) :
    let ev := (fresh { source := { workbook := book }, settings }).after ops
    (∀ v, (ev.reply query).1 = .ok v → v.Finite) ∧
    (∀ (c : CellAddress) (v : Value),
      ev.memory.values[c]? = some v ∨ (ev.reply query).2.memory.values[c]? = some v →
        v.Finite) ∧
    ∀ (op : Arithmetic) (x y : Float), op.Result x y (op.apply x y) := by
  intro ev
  have hstart : (fresh { source := { workbook := book }, settings }).KeepsFinite := {
    formulas := Engine.formulasRead_empty
    registry := rfl
    book := hbook
    remembered := fun c v hv => by simp [fresh] at hv }
  have hev : ev.KeepsFinite := hstart.after ops hvalues fun e he => hformulas e (he.append _)
  have hlast (e : Expr) (he : ev.Uses [.ask query] e) : e.FiniteConstants :=
    hformulas e (he.of_after hstart.formulas ops)
  have hsustains : ev.Sustains .finite := hev.sustains fun c e he =>
    hlast e (uses_of_holding he _)
  have hreply : (ev.apply (.ask query)).KeepsFinite := by
    refine hev.apply (fun _ _ h => ?_) hlast
    cases h
  refine ⟨fun v => hsustains.value_of_reply (KeepsFinite.upholds_asked hlast), ?_,
    Arithmetic.result_apply⟩
  intro c v hv
  exact hv.elim (hev.remembered c v) (hreply.remembered c v)

/-! ## A number that is stored and one that is written -/

/-- A number is stored in the first cell. -/
def storing (x : Float) : Operation := .setValue ⟨"Sheet1", 1, 1⟩ (.number x)

/-- The cell beside it asks for the first cell. -/
def asking : Operation := .ask (.formula "A1" ⟨"Sheet1", 1, 2⟩)

/-- The only formula on the way is that of the cell beside. -/
theorem eq_of_uses_storing {x : Float} {e : Expr} (h : empty.Uses [storing x, asking] e) :
    e = Engine.firstCell := by
  have hwrite : Workbook.new.write ⟨"Sheet1", 1, 1⟩ (.ofValue (.number x)) =
      .ok (empty.apply (storing x)).source.workbook := rfl
  cases h with
  | @stored before c hbefore he =>
      obtain rfl | ⟨before, rfl, hrest⟩ := List.prefix_cons_iff.mp hbefore
      · obtain ⟨content, text, hread, htext, -⟩ := Engine.holding_eq_formula.mp he
        rw [Workbook.read_new hread] at htext
        cases htext
      · have hengine : (empty.after (storing x :: before)).toEngine =
            (empty.apply (storing x)).toEngine := toEngine_after_ask hrest
        rw [hengine] at he
        obtain ⟨content, text, hread, htext, -⟩ := Engine.holding_eq_formula.mp he
        obtain rfl | hread := Workbook.read_of_write hwrite hread
        · cases htext
        · rw [Workbook.read_new hread] at htext
          cases htext
  | asked hop he =>
      obtain hop | hop := List.mem_cons.mp hop
      · cases hop
      · cases List.mem_singleton.mp hop
        exact (Except.ok.inj (Engine.readFormula_firstCell.symm.trans he)).symm

set_option maxRecDepth 4000 in
/-- A number is stored and answered. Its square, which is beyond the greatest double, is an
error. -/
theorem numbers_finite_square :
    (Workbook.new.Finite ∧
      (∀ cell value, .setValue cell value ∈ [storing 1e200] → value.Finite) ∧
      ∀ e, empty.Uses [storing 1e200, asking] e → e.FiniteConstants) ∧
      ((empty.apply (storing 1e200)).reply (.formula "A1" ⟨"Sheet1", 1, 2⟩)).1 =
        .ok (.number 1e200) ∧
      (Value.number 1e200).Finite ∧ Arithmetic.multiply.apply 1e200 1e200 = .error .number := by
  have hbook : Workbook.new.Finite := fun c content h => by
    rw [Workbook.read_new h]
    trivial
  have hvalues : ∀ cell value, .setValue cell value ∈ [storing 1e200] → value.Finite := by
    intro cell value h
    cases List.mem_singleton.mp h
    exact (by decide +kernel : (1e200 : Float).isFinite = true)
  have hformulas (e : Expr) (h : empty.Uses [storing 1e200, asking] e) : e.FiniteConstants := by
    obtain rfl := eq_of_uses_storing h
    intro node hnode
    obtain rfl := List.mem_singleton.mp hnode
    trivial
  have hreply (x : Float) : ((empty.apply (storing x)).reply
      (.formula "A1" ⟨"Sheet1", 1, 2⟩)).1 = .ok (.number x) := by
    with_unfolding_all rfl
  obtain ⟨hfinite, -, happly⟩ := numbers_finite hbook {} [storing 1e200]
    (.formula "A1" ⟨"Sheet1", 1, 2⟩) hvalues hformulas
  refine ⟨⟨hbook, hvalues, hformulas⟩, hreply _, hfinite _ (hreply _), ?_⟩
  have hsquare := happly .multiply 1e200 1e200
  generalize Arithmetic.multiply.apply 1e200 1e200 = square at hsquare ⊢
  cases hsquare with
  | finite h => exact absurd h (by decide +kernel)
  | fails _ => rfl
  | dividesByZero h => simp at h

/-- The constant is read as an infinity. -/
def infiniteConstant : Expr := .literal (.number (1 / 0))

set_option maxRecDepth 4000 in
theorem readFormula_infinite : Registry.builtins.readFormula "=1e999" = .ok infiniteConstant := by
  have htokens : Token.ofCharsFrom 0 "1e999".toList = .ok [⟨.number, "1e999", 0⟩] := by decide +kernel
  have hatom : Atom ⟨.number, "1e999", 0⟩ infiniteConstant := .constant rfl
  have htext : Expr.ofText "=1e999" = .ok infiniteConstant := by
    rw [Expr.ofText, Expr.ofBody, bind_eq_ok]
    exact ⟨_, htokens, Expr.ofTokens_eq_ok.mpr (.ofOperand (.atom hatom))⟩
  exact Registry.readFormula_eq_ok.mpr ⟨htext, List.forall_mem_singleton.mpr rfl⟩

/-- No number is stored, but a constant is answered that is beyond the greatest double. -/
theorem constant_infinite :
    Workbook.new.Finite ∧
      (empty.reply (.formula "=1e999" ⟨"Sheet1", 1, 1⟩)).1 = .ok (.number (1 / 0)) ∧
      ¬ (Value.number (1 / 0)).Finite := by
  have hinquiry : Query.inquiry empty.toEngine (.formula "=1e999" ⟨"Sheet1", 1, 1⟩) =
      .ok (.done (.number (1 / 0))) := by
    have hcanonical : empty.source.canonical ⟨"Sheet1", 1, 1⟩ = .ok ⟨"Sheet1", 1, 1⟩ := rfl
    have hread : empty.registry.readFormula "=1e999" = .ok infiniteConstant := readFormula_infinite
    simp only [Query.inquiry, hcanonical, hread]
    rfl
  obtain ⟨_, _, _, _, hreply, hruns, -, -⟩ := reply_runs Engine.formulasRead_empty hinquiry
  refine ⟨fun c content h => ?_, ?_, fun h => ?_⟩
  · rw [Workbook.read_new h]
    trivial
  · rw [hreply]
    cases hruns
    rfl
  · cases Value.finite_scalar.mp h

end Evaluator

end Spreadsheet
