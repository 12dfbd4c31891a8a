-- SUMMARY: Every table that an evaluation comes to is a rectangle with a cell for each place.
import Spreadsheet.Proofs.Nodes
import Spreadsheet.Proofs.Cellwise

/-!
# Rectangular tables

A table is valid if it has a row and a column at least, and as many cells as places. Tables come
from constants, from the areas of a sheet, from operators and from functions, and all of these give
valid tables if they are given valid ones. So every table is valid that an evaluator answers,
remembers, or hands to a function. The cells of a table are scalars, so no table lies in another.
-/

namespace Spreadsheet

/-! ## Tables -/

namespace Table

variable {t part : Table} {rows cols : Nat}

theorem valid_single (s : Scalar) : (single s).Valid := ⟨Nat.one_pos, Nat.one_pos, rfl⟩

theorem valid_ofFn (hrows : 0 < rows) (hcols : 0 < cols) (f : Nat → Nat → Scalar) :
    (ofFn rows cols f).Valid :=
  ⟨hrows, hcols, Array.size_ofFn⟩

theorem Valid.map (h : t.Valid) (f : Scalar → Scalar) : (t.map f).Valid :=
  ⟨h.1, h.2.1, Array.size_map.trans h.2.2⟩

theorem Valid.row? (h : t.Valid) {row : Nat} (hpart : t.row? row = some part) : part.Valid := by
  unfold Table.row? at hpart
  split at hpart
  · cases hpart
    exact valid_ofFn Nat.one_pos h.2.1 _
  · cases hpart

theorem Valid.column? (h : t.Valid) {col : Nat} (hpart : t.column? col = some part) :
    part.Valid := by
  unfold Table.column? at hpart
  split at hpart
  · cases hpart
    exact valid_ofFn h.1 Nat.one_pos _
  · cases hpart

end Table

/-! ## Values -/

namespace Value

variable {v w : Value}

/-- The value is a scalar, or a table with a row, a column and a cell for each place. -/
def Valid : Value → Prop
  | .scalar _ => True
  | .table t => t.Valid

theorem Valid.toTable (h : v.Valid) : v.toTable.Valid := by
  cases v with
  | scalar s => exact Table.valid_single s
  | table t => exact h

theorem Valid.map (h : v.Valid) (f : Scalar → Scalar) : (v.map f).Valid := by
  cases v with
  | scalar s => trivial
  | table t => exact Table.Valid.map h f

/-- A table that is larger in one direction and one that is larger in the other give a table that
is as large as both. -/
theorem Valid.onValues (hv : v.Valid) (hw : w.Valid) (op : BinaryOp) : (op.onValues v w).Valid := by
  cases v with
  | scalar l =>
      cases w with
      | scalar r => trivial
      | table r => exact Table.Valid.map hw _
  | table l =>
      cases w with
      | scalar r => exact Table.Valid.map hv _
      | table r =>
          exact Table.valid_ofFn (Nat.lt_of_lt_of_le hv.1 (Nat.le_max_left _ _))
            (Nat.lt_of_lt_of_le hv.2.1 (Nat.le_max_left _ _)) _

end Value

/-- All tables are valid, those of used cells too. -/
def Standard.rectangles : Standard where
  value := Value.Valid
  used := Table.Valid

theorem Value.Valid.sliceOfTable {v : Value} (hv : v.Valid) (part : Function.Slice) :
    (Function.sliceOfTable v.toTable part).Valid := by
  unfold Function.sliceOfTable
  cases part with
  | cell row col =>
      dsimp only
      cases v.toTable.get? row col <;> trivial
  | row row =>
      dsimp only
      cases hrow : v.toTable.row? row with
      | none => trivial
      | some part => exact hv.toTable.row? hrow
  | column col =>
      dsimp only
      cases hcol : v.toTable.column? col with
      | none => trivial
      | some part => exact hv.toTable.column? hcol

theorem Standard.rectangles_ofShapes : Standard.rectangles.OfShapes where
  areas _ := trivial
  scalar _ := trivial
  map _ f hv := hv.map f
  slice _ part hv := hv.sliceOfTable part

theorem Standard.rectangles_closed : Standard.rectangles.Closed where
  toGrounded := rectangles_ofShapes.grounded fun _ ht => ht
  unary op _ hv := hv.map op.onScalar
  binary op _ _ hv hw := hv.onValues hw op

theorem Registry.builtins_rectangles :
    ∀ f ∈ Registry.builtins.functions, f.Upholds .rectangles :=
  builtins_cellwise (Standard.rectangles_ofShapes.cellwise fun _ ht => ht)

/-! ## Reading -/

namespace Site

variable {contract : Contract} {block : Area} {used : Option Area}
  (hasks : ∀ c, contract.asks c)
include hasks

/-- As many cells are read as there are left in the block. -/
theorem meets_size_readCells {count : Nat} (read : Array Scalar) :
    (readCells block used count read).Meets contract
      fun cells => cells.size = read.size + count := by
  induction count generalizing read with
  | zero => rfl
  | succ count ih =>
      have hpush (s : Scalar) : (readCells block used count (read.push s)).Meets contract
          fun cells => cells.size = read.size + (count + 1) := by
        refine (ih (read.push s)).mono (.refl _) fun cells hcells => ?_
        rw [hcells, Array.size_push, Nat.add_right_comm, Nat.add_assoc]
      unfold readCells
      dsimp only
      split
      · exact ⟨hasks _, fun v _ => hpush _⟩
      · exact hpush _

theorem meets_shape_readBlock : (readBlock block used).Meets contract
    fun t => t.rows = block.height ∧ t.cols = block.width ∧ t.cells.size = block.size :=
  (meets_size_readCells hasks _).bind fun _ hcells => ⟨rfl, rfl, hcells.trans (Nat.zero_add _)⟩

theorem meets_valid_readBlock : (readBlock block used).Meets contract Table.Valid := by
  refine (meets_shape_readBlock hasks).mono (.refl _) fun t ⟨hrows, hcols, hsize⟩ => ?_
  rw [Table.Valid, hsize, hrows, hcols]
  exact ⟨Nat.succ_pos _, Nat.succ_pos _, rfl⟩

omit hasks in
/-- All areas have a property that all areas have. -/
theorem keeps_of_forall {ok : Area → Prop} (h : ∀ area, ok area) (site : Site) : site.Keeps ok where
  bounding _ _ _ _ _ _ := h _
  offset _ _ _ _ _ _ _ _ := h _
  slice _ _ _ _ _ _ := h _
  indirect args := by
    cases Function.indirect site args with
    | reference r => exact fun _ _ => h _
    | value v => trivial
  named word := by
    cases site.named word with
    | reference r => exact fun _ _ => h _
    | value v => trivial

omit hasks in
/-- Tables that are read are valid whatever the answers are, of which only scalars are taken. -/
theorem upholds_rectangles (site : Site) (hopen : contract.Open) :
    site.Upholds .rectangles contract where
  fails := hopen.fails
  keeps := keeps_of_forall (fun _ => trivial) site
  area area _ := by
    unfold readArea
    split
    · exact ⟨hopen.notes _, hopen.asks _, fun _ _ => trivial⟩
    · dsimp only
      refine ⟨hopen.notes _, ?_⟩
      split
      · trivial
      · exact (meets_valid_readBlock hopen.asks).bind fun t ht => ht
  used area _ := by
    unfold readUsed
    dsimp only
    refine ⟨hopen.notes _, ?_⟩
    split
    · exact meets_valid_readBlock hopen.asks
    · exact Table.valid_single _

end Site

/-! ## Evaluators -/

open Formula in
/-- The tables that are written in a formula are valid. -/
theorem Site.allows_rectangles (site : Site) {entered : String} {e : Expr}
    (he : Expr.ofText entered = .ok e) : ∀ node ∈ e.nodes, site.Allows .rectangles node := by
  intro node hnode
  have hread := Expr.node_of_ofText he node hnode
  refine ⟨?_, fun _ _ => trivial, ?_⟩
  · cases node <;> first | exact fun _ _ => trivial | trivial
  · rintro t rfl
    exact hread.valid

theorem Engine.upholds_rectangles {engine : Engine} (hregistry : engine.registry = .builtins) :
    engine.Upholds .rectangles where
  closed := Standard.rectangles_closed
  areas _ := trivial
  functions := hregistry ▸ Registry.builtins_rectangles
  reads site _ _ htrusts := site.upholds_rectangles htrusts.toOpen
  allows site _ _ he := site.allows_rectangles (Registry.readFormula_eq_ok.mp he).1
  stored _ _ _ := trivial

namespace Evaluator

/-- Operations on an evaluator with the built-in functions leave it with valid tables. -/
theorem Upholds.rectangles_after {ev : Evaluator} (h : ev.Upholds .rectangles)
    (hregistry : ev.registry = .builtins) (ops : List Operation) :
    (ev.after ops).Upholds .rectangles := by
  refine after_induction (P := (Upholds · .rectangles)) ops h.formulas h
    fun before _ _ _ _ h' hstep hread => ?_
  have hsame := hstep.same.1.trans ((registry_after h.formulas before).trans hregistry)
  exact h'.step hstep hread (Engine.upholds_rectangles hsame)

open Formula in
/-- **Tables are rectangles.** A table is valid if it has a row and a column at least and as many
cells, all of them scalars, as places. Take any workbook and any operations on a fresh evaluator of
it with the built-in functions. Every table is then valid that is a reply to a query or a remembered
value. And in a call in any formula, however the inquiries of the call are recorded and answered,
the arguments that a function gets hold only valid tables, and so does the value of an argument that
it asks for later. -/
theorem tables_valid (book : Workbook) (settings : Settings) (ops : List Operation) :
    let ev := (fresh { source := { workbook := book }, settings }).after ops
    (∀ query v, (ev.reply query).1 = .ok v → v.Valid) ∧
    (∀ (c : CellAddress) (v : Value), ev.memory.values[c]? = some v → v.Valid) ∧
    ∀ entered e, Expr.ofText entered = .ok e → ∀ function es, .call function es ∈ e.nodes →
      ∀ f, Registry.builtins.get? function = some f → ∀ (site : Site)
        (record : Reading → Evaluation Unit) (answer : CellAddress → Evaluation Value)
        (m m' : Memory),
        (∀ args, ((Expr.argumentsOf .builtins site f 0 es).run record answer).on m =
            (.ok (.ok args), m') →
          ∀ arg ∈ args, (∀ v, arg = .value v → v.Valid) ∧
            ∀ tables, arg = .areas tables → ∀ t ∈ tables, t.Valid) ∧
        ∀ index v, ((Expr.valueAt .builtins site index es).run record answer).on m =
          (.ok v, m') → v.Valid := by
  intro ev
  have hev : ev.Upholds .rectangles :=
    (Upholds.fresh (Engine.upholds_rectangles rfl)).rectangles_after rfl ops
  refine ⟨fun query v => hev.value_of_reply, hev.remembered, ?_⟩
  intro entered e he function es hcall f _ site record answer m m'
  have hsite : site.Upholds .rectangles {} :=
    site.upholds_rectangles ⟨fun _ => trivial, fun _ => trivial, fun _ => trivial⟩
  have hes : ∀ node ∈ Expr.nodesOf es, site.Allows .rectangles node := fun node hnode =>
    site.allows_rectangles he node (Expr.nodes_subset hcall (List.mem_cons_of_mem _ hnode))
  have hargs := Expr.meets_argumentsOf hsite Standard.rectangles_closed
    Registry.builtins_rectangles f 0 es hes
  constructor
  · intro args hrun arg harg
    have hupholds := hargs.of_run (fun _ _ => trivial) hrun args rfl arg harg
    constructor
    · rintro v rfl
      exact hupholds
    · rintro tables rfl
      exact hupholds
  · intro index v hrun
    exact (Expr.meets_valueAt hsite Standard.rectangles_closed Registry.builtins_rectangles index es
      hes).of_run (fun _ _ => trivial) hrun

set_option maxRecDepth 4000 in
open Formula in
/-- An area and a column with blanks are answered and remembered as tables, and a row of constants
is handed to `AND` as one. -/
theorem tables_valid_pair :
    let area : Table := ⟨2, 1, #[.bool true, .blank]⟩
    let column : Table := ⟨3, 1, #[.bool true, .blank, .blank]⟩
    let row : Table := ⟨1, 2, #[.bool true, .text "x"]⟩
    ((fresh (.pair true "A1:A3")).reply (.area ⟨"Sheet1", 1, 1, 2, 1, .cells⟩)).1 =
        .ok (.table area) ∧ area.Valid ∧
      (computedPair "A1:A3").memory.values[Workbook.pairFormula]? = some (.table column) ∧
      column.Valid ∧
      Expr.ofText "AND(\x7bTRUE,\"x\"\x7d)" = .ok (.call "AND" [.table row]) ∧ row.Valid := by
  intro area column row
  have hreply : ((fresh (.pair true "A1:A3")).reply (.area ⟨"Sheet1", 1, 1, 2, 1, .cells⟩)).1 =
      .ok (.table area) := by decide +kernel
  have hvalue : (computedPair "A1:A3").memory.values[Workbook.pairFormula]? =
      some (.table column) := by decide +kernel
  have hread : Expr.ofText "AND(\x7bTRUE,\"x\"\x7d)" = .ok (.call "AND" [.table row]) := by decide +kernel
  obtain ⟨hreplies, -, -⟩ := tables_valid (.pair true "A1:A3") {} []
  obtain ⟨-, hremembered, hcalls⟩ :=
    tables_valid (.pair true "A1:A3") {} [.ask (.cell Workbook.pairFormula)]
  obtain ⟨hargs, -⟩ := hcalls _ _ hread "AND" [.table row] List.mem_cons_self _ rfl
    ⟨{ workbook := .pair true "A1:A3" }, Workbook.pairFormula, 0⟩ (fun _ => pure ())
    (fun _ => pure .blank) {} {}
  have hgiven := (hargs [.areas [row]] rfl _ List.mem_cons_self).2 _ rfl
  exact ⟨hreply, hreplies _ _ hreply, hvalue, hremembered _ _ hvalue, hread,
    hgiven _ List.mem_cons_self⟩

end Evaluator

end Spreadsheet
