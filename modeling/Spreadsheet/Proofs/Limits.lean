-- SUMMARY: A table grows beyond the limit only where an operator joins a tall one and a wide one.
import Spreadsheet.Proofs.Applications
import Spreadsheet.Proofs.Computations
import Spreadsheet.Proofs.Failures
import Spreadsheet.Proofs.Rectangles
import Spreadsheet.Proofs.Strict

/-!
# The size of tables

A table that is read from a sheet has at most `maxTableCells` cells, and a larger area is an error.
Functions give no larger tables than they get, and neither do operators on a table and a scalar.
An operator on two tables gives one that is as tall as the taller and as wide as the wider of them,
and that size is not checked. So where a larger table comes up, an operator was applied to two
tables within the limit, one of them too tall for the width of the other.
-/

namespace Spreadsheet

open Engine

/-! ## Limited values -/

/-- The table around two tables has all rows of the taller and all columns of the wider. -/
theorem BinaryOp.exists_onValues_tables (op : BinaryOp) (a b : Table) :
    ∃ t, op.onValues (.table a) (.table b) = .table t ∧
      t.cells.size = max a.rows b.rows * max a.cols b.cols :=
  ⟨_, rfl, Array.size_ofFn⟩

/-- As many scalars at most as a table may have that is read from a sheet. -/
def Value.Limited (v : Value) : Prop := v.scalars.length ≤ maxTableCells

/-- Both tables have at most as many cells as one that is read from a sheet, but a table that is as
tall as the taller and as wide as the wider of them has more. -/
def Table.Outgrow (a b : Table) : Prop :=
  (Value.table a).Limited ∧ (Value.table b).Limited ∧
    maxTableCells < max a.rows b.rows * max a.cols b.cols

namespace Value

variable {v w : Value}

theorem limited_scalar (s : Scalar) : (Value.scalar s).Limited := Nat.le_of_ble_eq_true rfl

theorem limited_table {t : Table} : (Value.table t).Limited ↔ t.cells.size ≤ maxTableCells :=
  Iff.rfl

theorem Limited.map (h : v.Limited) (f : Scalar → Scalar) : (v.map f).Limited := by
  cases v with
  | scalar s => exact limited_scalar _
  | table t => exact limited_table.mpr (Array.size_map.trans_le h)

theorem limited_ofFn {rows cols : Nat} {f : Nat → Nat → Scalar} :
    (Value.table (.ofFn rows cols f)).Limited ↔ rows * cols ≤ maxTableCells := by
  rw [limited_table, Table.ofFn, Array.size_ofFn]

/-- Only two tables can be joined to one that is too large. -/
theorem Limited.onValues (hv : v.Limited) (hw : w.Limited) (op : BinaryOp) :
    (op.onValues v w).Limited ∨ ∃ a b, v = .table a ∧ w = .table b ∧ a.Outgrow b := by
  cases v with
  | scalar l =>
      cases w with
      | scalar r => exact .inl (limited_scalar _)
      | table r => exact .inl (hw.map _)
  | table l =>
      cases w with
      | scalar r => exact .inl (hv.map _)
      | table r =>
          refine (Nat.lt_or_ge maxTableCells (max l.rows r.rows * max l.cols r.cols)).symm.imp ?_ ?_
          · exact limited_ofFn.mpr
          · exact fun hlarge => ⟨l, r, rfl, rfl, hv, hw, hlarge⟩

/-- A row or a column of a table is no larger than the table. -/
theorem Limited.sliceOfTable (hvalid : v.Valid) (h : v.Limited) (part : Function.Slice) :
    (Function.sliceOfTable v.toTable part).Limited := by
  have hsize : v.toTable.rows * v.toTable.cols ≤ maxTableCells := by
    rw [← hvalid.toTable.2.2]
    cases v with
    | scalar s => exact h
    | table t => exact h
  obtain ⟨hrows, hcols, -⟩ := hvalid.toTable
  unfold Function.sliceOfTable Table.row? Table.column?
  cases part with
  | cell row col =>
      dsimp only
      cases v.toTable.get? row col <;> exact limited_scalar _
  | row row =>
      dsimp only
      split
      · refine limited_ofFn.mpr (Nat.le_trans ?_ hsize)
        exact Nat.mul_le_mul_right _ hrows
      · exact limited_scalar _
  | column col =>
      dsimp only
      split
      · refine limited_ofFn.mpr (Nat.le_trans ?_ hsize)
        exact Nat.mul_le_mul_left _ hcols
      · exact limited_scalar _

end Value

/-- Tables are valid and within the limit. Nothing is asked of used cells, which give scalars. -/
def Standard.limited : Standard where
  value v := v.Valid ∧ v.Limited

theorem Standard.limited_ofShapes : Standard.limited.OfShapes where
  areas _ := trivial
  scalar _ := ⟨trivial, Value.limited_scalar _⟩
  map _ f hv := ⟨hv.1.map f, hv.2.map f⟩
  slice _ part hv := ⟨hv.1.sliceOfTable part, hv.2.sliceOfTable hv.1 part⟩

theorem Standard.limited_grounded : Standard.limited.Grounded :=
  limited_ofShapes.grounded fun _ _ => trivial

/-! ## Reading -/

namespace Site

variable {site : Site} {area : Area}

/-- A larger area is an error, and none of its cells is asked for. -/
theorem readArea_of_large (hsingle : ¬ area.isSingleCell)
    (h : maxTableCells < (area.clip (site.source.extent area.sheet).1
      (site.source.extent area.sheet).2).size) :
    site.readArea area = .note (.table area) (.done (.error .number)) := by
  unfold readArea
  rw [if_neg hsingle]
  dsimp only
  rw [if_pos h]

theorem readCells_unused (block : Area) (count : Nat) (read : Array Scalar) :
    readCells block none count read = .done (read ++ Array.replicate count .blank) := by
  induction count generalizing read with
  | zero => exact congrArg _ Array.append_empty.symm
  | succ count ih =>
      refine (ih (read.push .blank)).trans (congrArg _ ?_)
      rw [Array.push_eq_append, Array.append_assoc, ← Array.replicate_succ']

/-- On a sheet without used cells, an area reads as blanks. -/
theorem readArea_unused (hkind : area.kind = .cells) (hsingle : ¬ area.isSingleCell)
    (hsmall : area.size ≤ maxTableCells) (hunused : site.source.extent area.sheet = (0, 0))
    (htop : 0 < area.top) :
    site.readArea area = .note (.table area)
      (.done (.table ⟨area.height, area.width, .replicate area.size .blank⟩)) := by
  have hclip : area.clip 0 0 = area := by
    unfold Area.clip
    rw [hkind]
  have hwithin : area.within? 0 0 = none := if_pos (.inl htop)
  unfold readArea readBlock
  rw [if_neg hsingle, hunused]
  dsimp only
  rw [hclip, if_neg (Nat.not_lt.mpr hsmall), hwithin, readCells_unused,
    Array.emptyWithCapacity_eq, Array.empty_append]
  rfl

theorem upholds_limited (site : Site) {contract : Contract} (hopen : contract.Open) :
    site.Upholds .limited contract where
  fails := hopen.fails
  keeps := keeps_of_forall (fun _ => trivial) site
  area area _ := by
    unfold readArea
    split
    · exact ⟨hopen.notes _, hopen.asks _, fun _ _ => Standard.limited_ofShapes.scalar _⟩
    · dsimp only
      refine ⟨hopen.notes _, ?_⟩
      split
      · exact Standard.limited_grounded.error _
      · rename_i hsmall
        refine (meets_shape_readBlock hopen.asks).bind fun t ⟨hrows, hcols, hsize⟩ => ?_
        refine ⟨⟨?_, ?_, ?_⟩, Value.limited_table.mpr ?_⟩
        · exact hrows ▸ Nat.succ_pos _
        · exact hcols ▸ Nat.succ_pos _
        · exact hsize.trans (hrows ▸ hcols ▸ rfl)
        · exact hsize.trans_le (Nat.le_of_not_lt hsmall)
  used area _ := (meets_readUsed (fun _ _ => hopen.notes _) fun _ _ _ => hopen.asks _).mono
    (.refl _) fun _ _ => trivial

end Site

/-! ## Expressions -/

/-- Among the applied operators is one on two tables that outgrow the limit together. -/
def Outgrown (applies : BinaryOp → Value → Value → Prop) : Prop :=
  ∃ op a b, applies op (.table a) (.table b) ∧ a.Outgrow b

theorem Outgrown.imp {applies applies' : BinaryOp → Value → Value → Prop}
    (h : ∀ op v w, applies op v w → applies' op v w) : Outgrown applies → Outgrown applies' :=
  fun ⟨op, a, b, happlies, hlarge⟩ => ⟨op, a, b, h op _ _ happlies, hlarge⟩

namespace Formula.Expr

open Inquiry

set_option linter.unusedSectionVars false

/-- The tables of constants in the expression are within the limit. -/
def Moderate (e : Expr) : Prop := ∀ t, .table t ∈ e.nodes → (Value.table t).Limited

variable {registry : Registry} {site : Site}

variable (h : site.Upholds .limited {})

include h in
theorem limited_read {o : Operand} {t : Trail} {v : Value} {P : Prop}
    (ho : o.Upholds .limited ∨ P) (hread : (site.read o).Gives t v) :
    Standard.limited.value v ∨ P :=
  ho.imp_left fun ho => (h.meets_read Standard.limited_grounded ho).of_gives
    (fun _ _ => trivial) hread

/-- Along a trail, the expression comes to nothing larger unless an operator was applied there to
two tables that outgrow the limit. The trail may go on behind the expression. -/
def LimitedAlong (registry : Registry) (site : Site) (e : Expr) : Prop :=
  ∀ ⦃t rest : Trail⦄ ⦃o : Operand⦄, (e.operand registry site).Gives t o →
    o.Upholds .limited ∨ Outgrown (e.Applies registry site (t ++ rest))

section Parts

variable {op : BinaryOp} {e l r : Expr}
include h

theorem LimitedAlong.value (he : e.LimitedAlong registry site) {t rest : Trail} {v : Value}
    (hv : (e.value registry site).Gives t v) :
    Standard.limited.value v ∨ Outgrown (e.Applies registry site (t ++ rest)) := by
  obtain ⟨t, t', o, rfl, ho, hread⟩ := hv.of_bind
  rw [List.append_assoc]
  exact limited_read h (he ho) hread

theorem LimitedAlong.unary (he : e.LimitedAlong registry site) (op : UnaryOp) :
    (Expr.unary op e).LimitedAlong registry site := by
  intro t rest o ho
  obtain ⟨t, t', o', rfl, ho', hread⟩ := ho.of_bind
  obtain ⟨t', t'', v, rfl, hv, hdone⟩ := hread.of_bind
  obtain ⟨rfl, rfl⟩ := hdone.of_done
  rw [List.append_assoc]
  obtain hv | hout := limited_read h (he ho') hv
  · exact .inl (Standard.limited_ofShapes.map v op.onScalar hv)
  · exact .inr (hout.imp fun _ _ _ => .operand)

theorem LimitedAlong.range (hl : l.LimitedAlong registry site) (hr : r.LimitedAlong registry site) :
    (Expr.binary .range l r).LimitedAlong registry site := by
  intro t rest o ho
  obtain ⟨t, t', a, rfl, ha, hright⟩ := ho.of_bind
  obtain ⟨t', t'', b, rfl, hb, hdone⟩ := hright.of_bind
  obtain ⟨rfl, rfl⟩ := hdone.of_done
  simp only [List.append_assoc]
  obtain ha' | hout := hl ha
  · obtain hb' | hout := hr hb
    · exact .inl (upholds_between Standard.limited_grounded h.keeps ha' hb')
    · exact .inr (hout.imp fun _ _ _ => .corner ha)
  · exact .inr (hout.imp fun _ _ _ => .left)

theorem LimitedAlong.binary (hop : op ≠ .range) (hl : l.LimitedAlong registry site)
    (hr : r.LimitedAlong registry site) : (Expr.binary op l r).LimitedAlong registry site := by
  intro t rest o ho
  rw [operand_binary hop] at ho
  obtain ⟨t, t', v, rfl, hv, hright⟩ := ho.of_bind
  obtain ⟨t', t'', w, rfl, hw, hdone⟩ := hright.of_bind
  obtain ⟨rfl, rfl⟩ := hdone.of_done
  simp only [List.append_assoc]
  obtain hv' | hout := hl.value h hv
  · obtain hw' | hout := hr.value h hw
    · obtain hlimited | ⟨a, b, rfl, rfl, hlarge⟩ := hv'.2.onValues hw'.2 op
      · exact .inl ⟨hv'.1.onValues hw'.1 op, hlimited⟩
      · exact .inr ⟨op, a, b, .here hop hv hw, hlarge⟩
    · exact .inr (hout.imp fun _ _ _ => .right hop hv)
  · exact .inr (hout.imp fun _ _ _ => .left)

end Parts

variable (hregistry : ∀ f ∈ registry.functions, f.Upholds .limited)
include h hregistry

/-- So does a call if its arguments do, those that it asks for included. -/
theorem limited_call {function : String} {es : List Expr}
    (harguments : ∀ {f : Function} {t rest : Trail} {r : Except ErrorValue (List Argument)},
      (argumentsOf registry site f 0 es).Gives t r →
        (∀ args, r = .ok args → ∀ arg ∈ args, arg.Upholds .limited) ∨
          Outgrown (AppliesArgument registry site f 0 es (t ++ rest)))
    (hvalues : ∀ {index : Nat} {t rest : Trail} {v : Value},
      (valueAt registry site index es).Gives t v →
        Standard.limited.value v ∨
          ∃ e, es[index]? = some e ∧ Outgrown (e.Applies registry site (t ++ rest))) :
    (Expr.call function es).LimitedAlong registry site := by
  intro t rest o ho
  have hscalar (s : Scalar) : Standard.limited.value (.scalar s) :=
    Standard.limited_ofShapes.scalar s
  unfold operand at ho
  cases hf : registry.get? function with
  | none =>
      rw [hf] at ho
      obtain ⟨-, rfl⟩ := ho.of_done
      exact .inl (hscalar _)
  | some f =>
      simp only [hf] at ho
      cases hcount : f.checkCount es.length with
      | error failure =>
          rw [hcount] at ho
          cases ho
      | ok _ =>
          rw [hcount] at ho
          have hupholds := hregistry f (List.mem_of_find?_eq_some hf)
          obtain ⟨t, t', r, rfl, hargs, hcall⟩ := ho.of_bind
          rw [List.append_assoc]
          obtain hr | hout := harguments hargs
          · cases r with
            | error err =>
                obtain ⟨-, rfl⟩ := hcall.of_done
                exact .inl (hscalar _)
            | ok args =>
                have hcalled {v : Value} (hv : Standard.limited.value v) :
                    (f.call site args fun _ => .done v).Meets {} (Operand.Upholds .limited) :=
                  h.meets_call Standard.limited_grounded hupholds (hr args rfl) fun _ => hv
                change (f.call site args fun i => valueAt registry site i es).Gives t' o at hcall
                -- a call evaluates at most one of the arguments that it got unevaluated
                obtain heq | ⟨index, hforces, heq⟩ := f.call_cases site args fun i =>
                  valueAt registry site i es
                · rw [heq] at hcall
                  exact .inl ((hcalled (hscalar _)).of_gives (fun _ _ => trivial) hcall)
                · rw [heq] at hcall
                  obtain ⟨t', t'', v, rfl, hv, hcall⟩ := hcall.of_bind
                  rw [List.append_assoc]
                  obtain hv | ⟨e, he, hout⟩ := hvalues hv
                  · exact .inl ((hcalled hv).of_gives (fun _ _ => trivial) hcall)
                  · exact .inr (hout.imp fun _ _ _ => .forced hf hargs hforces he)
          · exact .inr (hout.imp fun _ _ _ => .argument hf)

mutual

theorem limited_operand (e : Expr)
    (he : ∀ t, .table t ∈ e.nodes → Standard.limited.value (.table t)) :
    e.LimitedAlong registry site := by
  have hscalar (s : Scalar) : Standard.limited.value (.scalar s) :=
    Standard.limited_ofShapes.scalar s
  intro t rest o ho
  match e with
  | .literal s =>
      obtain ⟨-, rfl⟩ := ho.of_done
      exact .inl (hscalar s)
  | .table t =>
      obtain ⟨-, rfl⟩ := ho.of_done
      exact .inl (he t List.mem_cons_self)
  | .cell sheet? coord =>
      obtain ⟨-, rfl⟩ := ho.of_done
      split
      · exact .inl fun _ _ => trivial
      · exact .inl (hscalar _)
  | .area sheet? corners =>
      obtain ⟨-, rfl⟩ := ho.of_done
      split
      · exact .inl fun _ _ => trivial
      · exact .inl (hscalar _)
  | .name word =>
      obtain ⟨-, rfl⟩ := ho.of_done
      unfold Site.named
      split
      · exact .inl (hscalar _)
      · split
        · exact .inl fun _ _ => trivial
        · exact .inl (hscalar _)
  | .unary op e =>
      have he (t) (ht : .table t ∈ e.nodes) := he t (List.mem_cons_of_mem _ ht)
      exact (limited_operand e he).unary h op ho
  | .binary op l r =>
      have hl (t) (ht : .table t ∈ l.nodes) :=
        he t (List.mem_cons_of_mem _ (List.mem_append_left _ ht))
      have hr (t) (ht : .table t ∈ r.nodes) :=
        he t (List.mem_cons_of_mem _ (List.mem_append_right _ ht))
      by_cases hop : op = .range
      · subst hop
        exact (limited_operand l hl).range h (limited_operand r hr) ho
      · exact (limited_operand l hl).binary h hop (limited_operand r hr) ho
  | .union items =>
      have hitems (t) (ht : .table t ∈ nodesOf items) := he t (List.mem_cons_of_mem _ ht)
      exact (limited_areasOf items hitems ho).imp_right (Outgrown.imp fun _ _ _ => .item)
  | .call function es =>
      have hes (t) (ht : .table t ∈ nodesOf es) := he t (List.mem_cons_of_mem _ ht)
      exact limited_call h hregistry (limited_argumentsOf _ 0 es hes) (limited_valueAt _ es hes) ho

theorem limited_areasOf (es : List Expr)
    (he : ∀ t, .table t ∈ nodesOf es → Standard.limited.value (.table t)) {areas : List Area}
    {t rest : Trail} {o : Operand} (ho : (areasOf registry site es areas).Gives t o) :
    o.Upholds .limited ∨ Outgrown (AppliesItem registry site es (t ++ rest)) := by
  match es with
  | [] =>
      obtain ⟨-, rfl⟩ := ho.of_done
      exact .inl fun _ _ => trivial
  | e :: es =>
      have hhead (t) (ht : .table t ∈ e.nodes) := he t (List.mem_append_left _ ht)
      have htail (t) (ht : .table t ∈ nodesOf es) := he t (List.mem_append_right _ ht)
      obtain ⟨t, t', o', rfl, ho', hrest⟩ := ho.of_bind
      rw [List.append_assoc]
      obtain - | hout := limited_operand e hhead ho'
      · match o' with
        | .reference r =>
            exact (limited_areasOf es htail hrest).imp_right (Outgrown.imp fun _ _ _ => .tail ho')
        | .value v =>
            refine .inl ?_
            split at hrest
            · cases ‹Operand.value v = .reference _›
            · obtain ⟨-, rfl⟩ := hrest.of_done
              exact Standard.limited_ofShapes.scalar _
            · obtain ⟨-, rfl⟩ := hrest.of_done
              exact Standard.limited_ofShapes.scalar _
      · exact .inr (hout.imp fun _ _ _ => .head)

theorem limited_argumentsOf (f : Function) (index : Nat) (es : List Expr)
    (he : ∀ t, .table t ∈ nodesOf es → Standard.limited.value (.table t)) {t rest : Trail}
    {r : Except ErrorValue (List Argument)}
    (hr : (argumentsOf registry site f index es).Gives t r) :
    (∀ args, r = .ok args → ∀ arg ∈ args, arg.Upholds .limited) ∨
      Outgrown (AppliesArgument registry site f index es (t ++ rest)) := by
  match es with
  | [] =>
      obtain ⟨-, rfl⟩ := hr.of_done
      refine .inl ?_
      rintro _ ⟨⟩
      exact List.forall_mem_nil _
  | e :: es =>
      have hhead (t) (ht : .table t ∈ e.nodes) := he t (List.mem_append_left _ ht)
      have htail (t) (ht : .table t ∈ nodesOf es) := he t (List.mem_append_right _ ht)
      obtain ⟨t, t', p, rfl, hp, hrest⟩ := hr.of_bind
      rw [List.append_assoc]
      have hprepared : (∀ arg, p = .ok arg → arg.Upholds .limited) ∨
          Outgrown (AppliesArgument registry site f index (e :: es) (t ++ (t' ++ rest))) := by
        -- an argument that is passed on unevaluated comes to no table yet
        by_cases hkind : f.paramKind index = .lazy
        · rw [hkind] at hp
          obtain ⟨-, rfl⟩ := hp.of_done
          exact .inl fun _ harg => Except.ok.inj harg ▸ trivial
        · rw [site.prepare_eq_bind hkind] at hp
          obtain ⟨t, t'', o, rfl, ho, hp⟩ := hp.of_bind
          rw [List.append_assoc]
          obtain ho | hout := limited_operand e hhead ho
          · have hmeets : (site.prepare (f.paramKind index) fun _ => .done o).Meets {}
                fun p => ∀ arg, p = .ok arg → arg.Upholds .limited :=
              h.meets_prepare Standard.limited_grounded (f.paramKind index) ho
            exact .inl (hmeets.of_gives (fun _ _ => trivial) hp)
          · exact .inr (hout.imp fun _ _ _ => .head hkind)
      obtain hprepared | hout := hprepared
      · cases p with
        | error err =>
            obtain ⟨-, rfl⟩ := hrest.of_done
            exact .inl nofun
        | ok arg =>
            obtain ⟨t', t'', r', rfl, hr', hdone⟩ := hrest.of_bind
            obtain ⟨rfl, rfl⟩ := hdone.of_done
            rw [List.append_assoc]
            refine (limited_argumentsOf f (index + 1) es htail hr').imp (fun hargs args h => ?_)
              (Outgrown.imp fun _ _ _ => .tail hp)
            obtain ⟨args', hargs', rfl⟩ := map_eq_ok.mp h
            exact List.forall_mem_cons.mpr ⟨hprepared arg rfl, hargs args' hargs'⟩
      · exact .inr hout

theorem limited_valueAt (index : Nat) (es : List Expr)
    (he : ∀ t, .table t ∈ nodesOf es → Standard.limited.value (.table t)) {t rest : Trail}
    {v : Value} (hv : (valueAt registry site index es).Gives t v) :
    Standard.limited.value v ∨
      ∃ e, es[index]? = some e ∧ Outgrown (e.Applies registry site (t ++ rest)) := by
  match index, es with
  | _, [] =>
      unfold valueAt at hv
      obtain ⟨-, rfl⟩ := hv.of_done
      exact .inl (Standard.limited_ofShapes.scalar _)
  | 0, e :: es =>
      have hhead (t) (ht : .table t ∈ e.nodes) := he t (List.mem_append_left _ ht)
      exact ((limited_operand e hhead).value h hv).imp_right fun hout => ⟨e, rfl, hout⟩
  | index + 1, e :: es =>
      have htail (t) (ht : .table t ∈ nodesOf es) := he t (List.mem_append_right _ ht)
      exact limited_valueAt index es htail hv

end

omit h hregistry in
/-- A part of a formula comes to nothing larger than the limit unless an operator was applied in it
to two tables that outgrow the limit. -/
theorem limited_part {entered : String} {e : Expr} (he : Expr.ofText entered = .ok e)
    (hmoderate : e.Moderate) {part : Expr} (hpart : part ∈ e.nodes) {site : Site} {t : Trail}
    {v : Value} (hv : (part.value .builtins site).Gives t v) :
    v.Limited ∨ Outgrown (part.Applies .builtins site t) := by
  have htables (t) (ht : .table t ∈ part.nodes) : Standard.limited.value (.table t) :=
    have hmem := nodes_subset hpart ht
    ⟨(node_of_ofText he _ hmem).valid, hmoderate t hmem⟩
  have hsite : site.Upholds .limited {} :=
    site.upholds_limited ⟨fun _ => trivial, fun _ => trivial, fun _ => trivial⟩
  have hfunctions := Registry.builtins_cellwise
    (Standard.limited_ofShapes.cellwise fun _ _ => trivial)
  have hvalue : Standard.limited.value v ∨ Outgrown (part.Applies .builtins site (t ++ [])) :=
    (limited_operand hsite hfunctions part htables).value hsite hv
  rw [List.append_nil] at hvalue
  exact hvalue.imp_left And.right

end Formula.Expr

/-! ## Computations -/

/-- Some computation of the cell's formula asks for these cells and comes to the value, and in it
an operator is applied to two tables that outgrow the limit. -/
def Engine.Outgrew (engine : Engine) (c : CellAddress) (asked : List CellAddress) (v : Value) :
    Prop :=
  ∃ (chain : List CellAddress) (e : Formula.Expr) (trail : Trail),
    engine.holding c = .formula e ∧ trail.map Prod.fst = asked ∧
    (engine.inquiry chain c e).Gives trail v ∧
    Outgrown (e.Applies engine.registry ⟨engine.source, c, chain.length + 1⟩ trail)

/-- All formulas that are stored have moderate tables of constants. -/
def Engine.StoresModerate (engine : Engine) : Prop :=
  ∀ c e, engine.holding c = .formula e → e.Moderate

theorem Runs.limited {engine : Engine} {task : Task} {m m' : Memory} {s : Except Failure Value}
    {log : Log} (hregistry : engine.registry = .builtins) (hstores : engine.StoresModerate)
    (h : Runs engine task m s m' log) {c : CellAddress} {v : Value} {readings : List Reading}
    {asked : List CellAddress} (hevent : .computed c v readings asked ∈ log.events) :
    v.Limited ∨ engine.Outgrew c asked v := by
  induction h with
  | circle _ => cases List.mem_singleton.mp hevent
  | settled _ _ | remembered _ _ | tooDeep _ _ _ | done | fail => cases hevent
  | @computed depth chain cell _ _ e _ _ _ _ he _ hrun ih =>
      obtain hevent | hevent := List.mem_append.mp hevent
      · exact ih hevent
      · cases List.mem_singleton.mp hevent
        obtain ⟨trail, hasked, hgives⟩ := hrun.exists_trail
        obtain ⟨text, htext⟩ := readFormula_of_holding he
        have hread := (Registry.readFormula_eq_ok.mp htext).1
        refine (Formula.Expr.limited_part hread (hstores _ e he) e.mem_nodes ?_).imp_right
          fun hout => ⟨chain, e, trail, he, hasked, hgives, hregistry ▸ hout⟩
        exact hregistry ▸ hgives
  | failed _ _ _ _ ih => exact ih hevent
  | note _ ih => exact ih hevent
  | asked _ _ ih₁ ih => exact (List.mem_append.mp hevent).elim ih₁ ih
  | askFailed _ ih => exact ih hevent

/-! ## Evaluators -/

namespace Evaluator

variable {ev ev' : Evaluator} {op : Operation} {ops : List Operation}

/-- One of the operations computed the cell, and an operator was applied to two tables that outgrow
the limit when its formula came to the value. -/
def Outgrew (ev : Evaluator) (ops : List Operation) (c : CellAddress) (v : Value) : Prop :=
  ∃ before op readings asked, before ++ [op] <+: ops ∧
    .computed c v readings asked ∈ (ev.after before).events op ∧
    (ev.after before).toEngine.Outgrew c asked v

theorem Outgrew.mono {ops' : List Operation} {c : CellAddress} {v : Value} (hops : ops <+: ops')
    (h : ev.Outgrew ops c v) : ev.Outgrew ops' c v :=
  have ⟨before, op, readings, asked, hbefore, hevent, hout⟩ := h
  ⟨before, op, readings, asked, hbefore.trans hops, hevent, hout⟩

section

variable (hread : ev.FormulasRead ev.memory) (hregistry : ev.registry = .builtins)
  (hstores : ∀ before, before <+: ops → (ev.after before).StoresModerate)
include hread hregistry hstores

/-- What an operation computes is within the limit or outgrew it. -/
theorem limited_of_computed {before : List Operation} (hbefore : before <+: ops) {c : CellAddress}
    {v : Value} {readings : List Reading} {asked : List CellAddress}
    (hevent : .computed c v readings asked ∈ (ev.after before).events op) :
    v.Limited ∨ (ev.after before).toEngine.Outgrew c asked v := by
  have hstep := (step_apply (formulasRead_after hread before) op).1
  revert hstep hevent
  generalize (ev.after before).events op = events, (ev.after before).apply op = ev'
  intro hevent hstep
  cases hstep with
  | idle | written _ _ _ | forgotten => cases hevent
  | answered _ hruns =>
      exact hruns.limited ((registry_after hread before).trans hregistry) (hstores before hbefore)
        hevent

end

section

variable (hev : ev.RecordedBy []) (hregistry : ev.registry = .builtins)
  (hstores : ∀ before, before <+: ops → (ev.after before).StoresModerate)
include hev hregistry hstores

/-- So is what is remembered. -/
theorem limited_of_remembered {c : CellAddress} {v : Value}
    (hv : (ev.after ops).memory.values[c]? = some v) : v.Limited ∨ ev.Outgrew ops c v := by
  obtain ⟨readings, asked, hlast, -⟩ := (hev.after ops).told c v hv
  obtain ⟨before, op, hbefore, hevent⟩ := mem_history (mem_of_lastComputation? hlast)
  exact (limited_of_computed hev.formulas hregistry hstores ((List.prefix_append _ _).trans hbefore)
    hevent).imp_right fun hout => ⟨before, op, _, _, hbefore, hevent, hout⟩

/-- The value of a cell is remembered, or the operation that asks for it computes it. -/
theorem limited_of_evaluate {cell : CellAddress} {v : Value}
    (hv : ((ev.after ops).evaluate cell).1 = .ok v) :
    v.Limited ∨ ∃ c, (ev.after ops).source.canonical cell = .ok c ∧
      ev.Outgrew (ops ++ [.ask (.cell cell)]) c v := by
  have hread := formulasRead_after hev.formulas ops
  have hreply : ((ev.after ops).reply (.cell cell)).1 = .ok v := hv
  obtain ⟨q, -, hq, -⟩ := reply_gives hread hreply
  have hcanonical := hq
  simp only [Query.inquiry, bind_eq_ok, mapError_eq_ok, pure_eq_ok] at hcanonical
  obtain ⟨c, hc, rfl⟩ := hcanonical
  obtain ⟨formulas, s, m', log, hreply, hruns, hevents, -⟩ := reply_runs hread hq
  obtain rfl : s = .ok v := (congrArg Prod.fst hreply).symm.trans hv
  suffices h : v.Limited ∨ ev.Outgrew (ops ++ [.ask (.cell cell)]) c v from
    h.imp_right fun hout => ⟨c, hc, hout⟩
  generalize (ev.after ops).settings.maxDepth = depth at hruns
  cases hruns with
  | @asked _ _ _ _ _ _ _ _ _ _ log₁ _ hvisit hdone =>
      cases hdone
      have hcomputed {readings : List Reading} {asked : List CellAddress}
          (h : .computed c v readings asked ∈ log₁.events) :
          v.Limited ∨ ev.Outgrew (ops ++ [.ask (.cell cell)]) c v := by
        have hevent : .computed c v readings asked ∈ (ev.after ops).events (.ask (.cell cell)) :=
          hevents ▸ List.mem_append_left _ h
        exact (limited_of_computed hev.formulas hregistry hstores (List.prefix_refl ops)
          hevent).imp_right fun hout => ⟨ops, _, _, _, List.prefix_refl _, hevent, hout⟩
      cases hvisit with
      | circle hmem => cases hmem
      | settled _ hr =>
          obtain ⟨content, -, -, rfl⟩ := read_of_result hr
          exact .inl (Value.limited_scalar _)
      | remembered _ hw =>
          exact (limited_of_remembered hev hregistry hstores hw).imp_right
            (.mono (List.prefix_append _ _))
      | computed _ _ _ _ => exact hcomputed (List.mem_append_right _ (List.mem_singleton.mpr rfl))

end

/-! ## A tall and a wide table -/

/-- A column of 3000 cells and a row of 2054, added up. -/
def tallAndWide : Formula.Expr :=
  .binary (.arithmetic .add)
    (.area none ⟨{ row := 1, col := 1 }, { row := 3000, col := 1 }, .cells⟩)
    (.area none ⟨{ row := 1, col := 1 }, { row := 1, col := 2054 }, .cells⟩)

set_option maxRecDepth 4000 in
theorem readFormula_tallAndWide :
    Registry.builtins.readFormula "A1:A3000+A1:BZZ1" = .ok tallAndWide := by
  decide +kernel

theorem inquiry_tallAndWide :
    Query.inquiry empty.toEngine (.formula "A1:A3000+A1:BZZ1" ⟨"Sheet1", 1, 1⟩) =
      .ok (tallAndWide.value .builtins ⟨empty.source, ⟨"Sheet1", 1, 1⟩, 0⟩) := by
  have hcanonical : empty.source.canonical ⟨"Sheet1", 1, 1⟩ = .ok ⟨"Sheet1", 1, 1⟩ := rfl
  have hread : empty.registry.readFormula "A1:A3000+A1:BZZ1" = .ok tallAndWide :=
    readFormula_tallAndWide
  simp only [Query.inquiry, hcanonical, hread]
  rfl

/-- Both areas are read as tables, and the operator makes one of both heights and widths. -/
theorem evaluateFormula_tallAndWide :
    ∃ t : Table, (empty.evaluateFormula "A1:A3000+A1:BZZ1" ⟨"Sheet1", 1, 1⟩).1 = .ok (.table t) ∧
      t.cells.size = 3000 * 2054 := by
  let site : Site := ⟨empty.source, ⟨"Sheet1", 1, 1⟩, 0⟩
  let column : Area := ⟨"Sheet1", 1, 1, 3000, 1, .cells⟩
  let row : Area := ⟨"Sheet1", 1, 1, 1, 2054, .cells⟩
  have hcolumn : site.readArea column = .note (.table column)
      (.done (.table ⟨column.height, column.width, .replicate column.size .blank⟩)) :=
    Site.readArea_unused rfl (by decide) (by decide) rfl (by decide)
  have hrow : site.readArea row = .note (.table row)
      (.done (.table ⟨row.height, row.width, .replicate row.size .blank⟩)) :=
    Site.readArea_unused rfl (by decide) (by decide) rfl (by decide)
  obtain ⟨t, ht, hsize⟩ := BinaryOp.exists_onValues_tables (.arithmetic .add)
    ⟨column.height, column.width, .replicate column.size .blank⟩
    ⟨row.height, row.width, .replicate row.size .blank⟩
  have hvalue : tallAndWide.value .builtins site =
      .note (.table column) (.note (.table row) (.done (.table t))) := by
    have hoperand : tallAndWide.operand .builtins site = (site.readArea column).bind fun v =>
        (site.readArea row).bind fun w =>
          .done (.value ((BinaryOp.arithmetic .add).onValues v w)) := rfl
    rw [Formula.Expr.value, hoperand, hcolumn, hrow, ← ht]
    rfl
  obtain ⟨formulas, s, m', log, hreply, hruns, -, -⟩ :=
    reply_runs formulasRead_empty inquiry_tallAndWide
  rw [hvalue] at hruns
  cases hruns with
  | note hruns =>
      cases hruns with
      | note hruns =>
          cases hruns
          exact ⟨t, congrArg Prod.fst hreply, hsize.trans (by decide)⟩

/-! ## All tables -/

open Formula in
/-- **A table outgrows the limit only where an operator joins two tables.** Take any workbook and
any operations on a fresh evaluator of it with the built-in functions, where the tables of constants
in stored formulas have at most `maxTableCells` cells. Then a part of a formula whose tables of
constants have no more comes to a value with more cells only if, while that part was evaluated, an
operator other than the range operator was applied to two tables that have no more themselves, one
of which is so tall and the other so wide that the table around both has. The same goes for the
formula behind a value that is answered or remembered, in the computation that brought the value.
The value of an area has no more cells: a larger area is the error `#NUM!`. -/
theorem tables_limited (book : Workbook) (settings : Settings) (ops : List Operation)
    (hstores : ∀ before, before <+: ops →
      ((fresh { source := { workbook := book }, settings }).after before).StoresModerate) :
    let start := fresh { source := { workbook := book }, settings }
    let ev := start.after ops
    (∀ entered e, Expr.ofText entered = .ok e → e.Moderate → ∀ part ∈ e.nodes,
      ∀ (site : Site) trail v, (part.value .builtins site).Gives trail v →
        v.Limited ∨ Outgrown (part.Applies .builtins site trail)) ∧
    (∀ (site : Site) area, ¬ area.isSingleCell →
      maxTableCells < (area.clip (site.source.extent area.sheet).1
        (site.source.extent area.sheet).2).size →
      site.readArea area = .note (.table area) (.done (.error .number))) ∧
    (∀ area v, (ev.evaluateArea area).1 = .ok v → v.Limited) ∧
    (∀ entered cell v, (ev.evaluateFormula entered cell).1 = .ok v → ∃ e c trail,
      Registry.builtins.readFormula entered = .ok e ∧ ev.source.canonical cell = .ok c ∧
        (e.value .builtins ⟨ev.source, c, 0⟩).Gives trail v ∧
        (e.Moderate → v.Limited ∨ Outgrown (e.Applies .builtins ⟨ev.source, c, 0⟩ trail))) ∧
    (∀ cell v, (ev.evaluate cell).1 = .ok v → v.Limited ∨
      ∃ c, ev.source.canonical cell = .ok c ∧ start.Outgrew (ops ++ [.ask (.cell cell)]) c v) ∧
    ∀ (c : CellAddress) (v : Value), ev.memory.values[c]? = some v →
      v.Limited ∨ start.Outgrew ops c v := by
  intro start ev
  have hstart : start.RecordedBy [] := recordedBy_fresh _
  have hread : ev.FormulasRead ev.memory := formulasRead_after hstart.formulas ops
  have hregistry : ev.registry = .builtins := registry_after hstart.formulas ops
  refine ⟨fun _ _ he hmoderate _ hpart _ _ _ => Expr.limited_part he hmoderate hpart,
    fun _ _ => Site.readArea_of_large, ?_, ?_, fun _ _ => limited_of_evaluate hstart rfl hstores,
    fun _ _ => limited_of_remembered hstart rfl hstores⟩
  · intro area v hv
    have hreply : (ev.reply (.area area)).1 = .ok v := hv
    obtain ⟨q, trail, hq, hgives⟩ := reply_gives hread hreply
    simp only [Query.inquiry, bind_eq_ok, pure_eq_ok] at hq
    obtain ⟨corner, -, rfl⟩ := hq
    have hsite : (Site.mk ev.source corner 0).Upholds .limited {} :=
      Site.upholds_limited _ ⟨fun _ => trivial, fun _ => trivial, fun _ => trivial⟩
    exact ((hsite.area _ trivial).of_gives (fun _ _ => trivial) hgives).2
  · intro entered cell v hv
    have hreply : (ev.reply (.formula entered cell)).1 = .ok v := hv
    obtain ⟨q, trail, hq, hgives⟩ := reply_gives hread hreply
    simp only [Query.inquiry, bind_eq_ok, mapError_eq_ok, pure_eq_ok] at hq
    obtain ⟨c, hc, e, he, rfl⟩ := hq
    rw [hregistry] at he hgives
    refine ⟨e, c, trail, he, hc, hgives, fun hmoderate => ?_⟩
    exact Expr.limited_part (Registry.readFormula_eq_ok.mp he).1 hmoderate e.mem_nodes hgives

open Workbook in
set_option maxRecDepth 4000 in
/-- A table of constants is remembered, and the sum of a column and a row is beyond the limit. -/
theorem tables_limited_pair :
    let row : Table := ⟨1, 2, #[.bool true, .text "x"]⟩
    let start := fresh (.pair true "\x7bTRUE,\"x\"\x7d")
    (∀ before, before <+: [.ask (.cell pairFormula)] → (start.after before).StoresModerate) ∧
      (computedPair "\x7bTRUE,\"x\"\x7d").memory.values[pairFormula]? = some (.table row) ∧
      ((Value.table row).Limited ∨
        start.Outgrew [.ask (.cell pairFormula)] pairFormula (.table row)) ∧
      ∃ (e : Formula.Expr) (c : CellAddress) (trail : Trail) (t : Table), e.Moderate ∧
        (e.value .builtins ⟨empty.source, c, 0⟩).Gives trail (.table t) ∧
        ¬ (Value.table t).Limited ∧
        Outgrown (e.Applies .builtins ⟨empty.source, c, 0⟩ trail) := by
  intro row start
  have hread : Registry.builtins.readFormula "\x7bTRUE,\"x\"\x7d" = .ok (.table row) := by decide +kernel
  have hstores (before) (hbefore : before <+: [Operation.ask (.cell pairFormula)]) :
      (start.after before).StoresModerate := by
    have hengine : (start.after before).toEngine = .pair true "\x7bTRUE,\"x\"\x7d" :=
      toEngine_after_ask hbefore
    have hbook : (Engine.pair true "\x7bTRUE,\"x\"\x7d").source.workbook =
        .pair true "\x7bTRUE,\"x\"\x7d" := rfl
    intro c e he t ht
    rw [hengine] at he
    obtain ⟨-, -, rfl⟩ := holding_pair hbook hread he
    obtain ht | ht := List.mem_cons.mp ht
    · cases ht
      exact Value.limited_table.mpr (by decide)
    · simp at ht
  have hvalue : (computedPair "\x7bTRUE,\"x\"\x7d").memory.values[pairFormula]? =
      some (.table row) := by decide +kernel
  obtain ⟨-, -, -, -, -, hremembered⟩ := tables_limited (.pair true "\x7bTRUE,\"x\"\x7d") {}
    [.ask (.cell pairFormula)] hstores
  refine ⟨hstores, hvalue, hremembered pairFormula _ hvalue, ?_⟩
  obtain ⟨t, hreply, hsize⟩ := evaluateFormula_tallAndWide
  have hempty (before) (hbefore : before <+: ([] : List Operation)) :
      (empty.after before).StoresModerate := by
    obtain rfl := List.prefix_nil.mp hbefore
    intro c e he
    obtain ⟨content, text, hread, htext, -⟩ := holding_eq_formula.mp he
    rw [Workbook.read_new hread] at htext
    cases htext
  obtain ⟨-, -, -, hformulas, -, -⟩ := tables_limited .new {} [] hempty
  obtain ⟨e, c, trail, he, -, hgives, hlimited⟩ := hformulas _ _ _ hreply
  obtain rfl := Except.ok.inj (he.symm.trans readFormula_tallAndWide)
  have hmoderate : tallAndWide.Moderate := by
    intro t ht
    simp [tallAndWide, Formula.Expr.nodes] at ht
  have hlarge : ¬ (Value.table t).Limited := by
    rw [Value.limited_table, hsize]
    decide
  exact ⟨tallAndWide, c, trail, t, hmoderate, hgives, hlarge,
    (hlimited hmoderate).resolve_left hlarge⟩

/-- Neither of two areas is too large to be read, and no constant is, but their sum is a table that
is beyond the limit. -/
theorem sum_beyond_limit :
    ∃ (e : Formula.Expr) (t : Table), empty.registry.readFormula "A1:A3000+A1:BZZ1" = .ok e ∧
      (∀ constants, .table constants ∉ e.nodes) ∧
      (empty.evaluateFormula "A1:A3000+A1:BZZ1" ⟨"Sheet1", 1, 1⟩).1 = .ok (.table t) ∧
      maxTableCells < t.cells.size := by
  obtain ⟨t, hreply, hsize⟩ := evaluateFormula_tallAndWide
  refine ⟨tallAndWide, t, readFormula_tallAndWide, fun constants h => ?_, hreply, ?_⟩
  · simp [tallAndWide, Formula.Expr.nodes] at h
  · rw [hsize]
    decide

end Evaluator

end Spreadsheet
