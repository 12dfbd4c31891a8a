-- SUMMARY: Operators on values are the operators on scalars, at each place of both values.
import Spreadsheet.Proofs.Rectangles
import Spreadsheet.Proofs.Strict

/-!
# Operators at each place

An operator meets two scalars, a table and a scalar in either order, or two tables of any extents.
All four come to one rule for the places of a table around both values: a place has what the
operator gives for the scalars that the two values have there. A scalar stands at every place, a
single row at every row and a single column at every column. Where one of the values has nothing,
the place is not available.
-/

namespace Spreadsheet

/-! ## The cells of tables -/

namespace Table

variable {t : Table} {rows cols row col : Nat} {s : Scalar}

theorem get?_eq_some :
    t.get? row col = some s ↔
      row < t.rows ∧ col < t.cols ∧ t.cells[row * t.cols + col]? = some s := by
  unfold get?
  split
  · rename_i h
    simp [h]
  · rename_i h
    constructor
    · intro hnone
      cases hnone
    · rintro ⟨hrow, hcol, -⟩
      exact absurd ⟨hrow, hcol⟩ h

theorem place_lt (hrow : row < rows) (hcol : col < cols) : row * cols + col < rows * cols :=
  calc row * cols + col < (row + 1) * cols := by rw [Nat.succ_mul]; omega
    _ ≤ rows * cols := Nat.mul_le_mul_right _ hrow

theorem Valid.exists_get? (h : t.Valid) (hrow : row < t.rows) (hcol : col < t.cols) :
    ∃ s, t.get? row col = some s := by
  have hlt : row * t.cols + col < t.cells.size := h.2.2 ▸ place_lt hrow hcol
  exact ⟨_, get?_eq_some.mpr ⟨hrow, hcol, Array.getElem?_eq_getElem hlt⟩⟩

theorem get?_map (f : Scalar → Scalar) : (t.map f).get? row col = (t.get? row col).map f := by
  unfold get? map
  split <;> simp

theorem get?_ofFn {f : Nat → Nat → Scalar} :
    (ofFn rows cols f).get? row col = some s ↔ row < rows ∧ col < cols ∧ f row col = s := by
  rw [get?_eq_some]
  refine and_congr_right fun (hrow : row < rows) => and_congr_right fun (hcol : col < cols) => ?_
  have hdiv : (row * cols + col) / cols = row := by
    rw [Nat.mul_comm, Nat.mul_add_div (Nat.zero_lt_of_lt hcol), Nat.div_eq_of_lt hcol, Nat.add_zero]
  have hmod : (row * cols + col) % cols = col := by
    rw [Nat.mul_comm, Nat.mul_add_mod, Nat.mod_eq_of_lt hcol]
  simp only [ofFn, Array.getElem?_ofFn, place_lt hrow hcol, hdiv, hmod, dite_true,
    Option.some.injEq]

end Table

/-! ## What a value has at a place -/

/-- What a value has at a place of a table around it. Places count from zero. -/
inductive Value.Spreads : Value → (row col : Nat) → Scalar → Prop where
  | scalar (s : Scalar) (row col : Nat) : Spreads (.scalar s) row col s
  /-- The cells of a table are kept row by row. -/
  | cell {t : Table} {row col : Nat} {s : Scalar} (hrow : row < t.rows) (hcol : col < t.cols)
      (hs : t.cells[row * t.cols + col]? = some s) : Spreads (.table t) row col s
  /-- A single row repeats downwards. -/
  | down {t : Table} {col : Nat} {s : Scalar} (hrows : t.rows = 1)
      (hs : Spreads (.table t) 0 col s) (row : Nat) : Spreads (.table t) row col s
  /-- A single column repeats to the right. -/
  | right {t : Table} {row : Nat} {s : Scalar} (hcols : t.cols = 1)
      (hs : Spreads (.table t) row 0 s) (col : Nat) : Spreads (.table t) row col s

namespace Value

variable {v : Value} {t : Table} {row col : Nat} {s s' : Scalar}

theorem spreads_of_get? (h : t.get? row col = some s) : (Value.table t).Spreads row col s := by
  obtain ⟨hrow, hcol, hs⟩ := Table.get?_eq_some.mp h
  exact .cell hrow hcol hs

theorem spreads_scalar {a : Scalar} : (Value.scalar a).Spreads row col s ↔ s = a := by
  constructor
  · rintro ⟨⟩
    rfl
  · rintro rfl
    exact .scalar s row col

theorem spreads_table : (Value.table t).Spreads row col s ↔ t.spread? row col = some s := by
  unfold Table.spread?
  constructor
  · intro h
    -- Each step of the derivation is about the same table, so the value is kept as a variable.
    generalize hv : Value.table t = v at h
    induction h with
    | scalar => cases hv
    | @cell _ row col _ hrow hcol hs =>
        cases hv
        -- Inside the table a place that is repeated is the first one anyway.
        have hplace {n i : Nat} (hi : i < n) : (if n = 1 then 0 else i) = i := by
          split <;> omega
        rw [hplace hrow, hplace hcol]
        exact Table.get?_eq_some.mpr ⟨hrow, hcol, hs⟩
    | down hrows _ row ih =>
        cases hv
        have h := ih rfl
        rwa [if_pos hrows] at h ⊢
    | right hcols _ col ih =>
        cases hv
        have h := ih rfl
        rwa [if_pos hcols] at h ⊢
  · intro h
    have hcell := spreads_of_get? h
    by_cases hrows : t.rows = 1
    · by_cases hcols : t.cols = 1
      · rw [if_pos hrows, if_pos hcols] at hcell
        exact .down hrows (.right hcols hcell col) row
      · rw [if_pos hrows, if_neg hcols] at hcell
        exact .down hrows hcell row
    · by_cases hcols : t.cols = 1
      · rw [if_neg hrows, if_pos hcols] at hcell
        exact .right hcols hcell col
      · rwa [if_neg hrows, if_neg hcols] at hcell

/-- A value has one scalar at most at a place. -/
theorem Spreads.unique (h : v.Spreads row col s) (h' : v.Spreads row col s') : s = s' := by
  cases v with
  | scalar a => rw [spreads_scalar.mp h, spreads_scalar.mp h']
  | table t => exact Option.some.inj ((spreads_table.mp h).symm.trans (spreads_table.mp h'))

end Value

/-! ## What an operator gives at a place -/

namespace BinaryOp

variable {op : BinaryOp} {l r : Value} {row col : Nat} {s s' a b : Scalar} {e : ErrorValue}

/-- What the operator gives at a place of two values. -/
inductive Joins (op : BinaryOp) (l r : Value) (row col : Nat) : Scalar → Prop where
  | both {a b : Scalar} (ha : l.Spreads row col a) (hb : r.Spreads row col b) :
      Joins op l r row col (op.onScalars a b)
  | missing (h : (∀ a, ¬ l.Spreads row col a) ∨ ∀ b, ¬ r.Spreads row col b) :
      Joins op l r row col (.error .notAvailable)

theorem Joins.unique (h : op.Joins l r row col s) (h' : op.Joins l r row col s') : s = s' := by
  cases h with
  | both ha hb =>
      cases h' with
      | both ha' hb' => rw [ha.unique ha', hb.unique hb']
      | missing hnone => exact absurd hnone (not_or.mpr ⟨fun h => h _ ha, fun h => h _ hb⟩)
  | missing hnone =>
      cases h' with
      | both ha' hb' => exact absurd hnone (not_or.mpr ⟨fun h => h _ ha', fun h => h _ hb'⟩)
      | missing _ => rfl

theorem Joins.eq_onScalars (h : op.Joins l r row col s) (ha : l.Spreads row col a)
    (hb : r.Spreads row col b) : s = op.onScalars a b :=
  h.unique (.both ha hb)

/-! ### Errors -/

/-- An error on the left wins over whatever is on the right. -/
theorem onScalars_error_left (hop : op ≠ .range) (e : ErrorValue) (b : Scalar) :
    op.onScalars (.error e) b = .error e := by
  cases op with
  | range => exact absurd rfl hop
  | _ => rfl

/-- An error on the right is passed on, unless the left side is refused first: arithmetic refuses
text that is no number. -/
theorem onScalars_error_right (hop : op ≠ .range) (ha : ¬ a.isError) (e : ErrorValue) :
    op.onScalars a (.error e) = .error e ∨
      op.onScalars a (.error e) = .error .value ∧
        ∃ operation text, op = .arithmetic operation ∧ a = .text text ∧
          Number.ofText? text = none := by
  cases op with
  | arithmetic operation =>
      cases a with
      | error e' => exact absurd rfl ha
      | text text =>
          cases htext : Number.ofText? text with
          | none =>
              refine .inr ⟨?_, operation, text, rfl, rfl, htext⟩
              simp [onScalars, Scalar.toNumber, htext]
          | some x => exact .inl (by simp [onScalars, Scalar.toNumber, htext])
      | _ => exact .inl rfl
  | comparison operation =>
      cases a with
      | error e' => exact absurd rfl ha
      | _ => exact .inl rfl
  | concat =>
      cases a with
      | error e' => exact absurd rfl ha
      | _ => exact .inl rfl
  | range => exact absurd rfl hop

/-- A place is an error if one of the values has an error there, or nothing. -/
theorem Joins.isError (h : op.Joins l r row col s)
    (he : l.Spreads row col (.error e) ∨ r.Spreads row col (.error e)) : s.isError := by
  cases h with
  | both ha hb =>
      refine isError_onScalars (he.imp (fun he => ?_) fun he => ?_)
      · exact Scalar.isError_iff.mpr ⟨e, ha.unique he⟩
      · exact Scalar.isError_iff.mpr ⟨e, hb.unique he⟩
  | missing _ => rfl

/-! ### Values -/

theorem onValues_eq_scalar :
    (∃ s, op.onValues l r = .scalar s) ↔ (∃ a, l = .scalar a) ∧ ∃ b, r = .scalar b := by
  cases l with
  | scalar a =>
      cases r with
      | scalar b => exact iff_of_true ⟨_, rfl⟩ ⟨⟨a, rfl⟩, b, rfl⟩
      | table t => exact iff_of_false nofun nofun
  | table t => cases r <;> exact iff_of_false nofun nofun

/-- A table for one value and a scalar for the other make a table of the same extents, as two
tables make one that is as tall as the taller and as wide as the wider. -/
theorem extents_onValues (op : BinaryOp) (hl : l.Valid) (hr : r.Valid) :
    (op.onValues l r).toTable.rows = max l.toTable.rows r.toTable.rows ∧
      (op.onValues l r).toTable.cols = max l.toTable.cols r.toTable.cols := by
  cases l with
  | scalar a =>
      cases r with
      | scalar b => exact ⟨rfl, rfl⟩
      | table t => exact ⟨(Nat.max_eq_right hr.1).symm, (Nat.max_eq_right hr.2.1).symm⟩
  | table t =>
      cases r with
      | scalar b => exact ⟨(Nat.max_eq_left hl.1).symm, (Nat.max_eq_left hl.2.1).symm⟩
      | table u => exact ⟨rfl, rfl⟩

/-- Each place of the result has what the operator gives there. -/
theorem joins_of_get? (h : (op.onValues l r).toTable.get? row col = some s) :
    op.Joins l r row col s := by
  cases l with
  | scalar a =>
      cases r with
      | scalar b =>
          obtain ⟨hrow, hcol, hcell⟩ := Table.get?_eq_some.mp h
          obtain rfl : row = 0 := Nat.lt_one_iff.mp hrow
          obtain rfl : col = 0 := Nat.lt_one_iff.mp hcol
          cases hcell
          exact .both (.scalar a 0 0) (.scalar b 0 0)
      | table t =>
          rw [onValues, Value.toTable, Table.get?_map, Option.map_eq_some_iff] at h
          obtain ⟨b, hb, rfl⟩ := h
          exact .both (.scalar a row col) (Value.spreads_of_get? hb)
  | table t =>
      cases r with
      | scalar b =>
          rw [onValues, Value.toTable, Table.get?_map, Option.map_eq_some_iff] at h
          obtain ⟨a, ha, rfl⟩ := h
          exact .both (Value.spreads_of_get? ha) (.scalar b row col)
      | table u =>
          rw [onValues, Value.toTable, Table.get?_ofFn] at h
          obtain ⟨-, -, rfl⟩ := h
          split
          · rename_i a b ha hb
            exact .both (Value.spreads_table.mpr ha) (Value.spreads_table.mpr hb)
          · rename_i hnone
            -- The last branch of the match only says that the two values are not there together.
            refine .missing (or_iff_not_imp_left.mpr fun hsome b hb => ?_)
            simp only [not_forall, not_not] at hsome
            obtain ⟨a, ha⟩ := hsome
            exact hnone a b (Value.spreads_table.mp ha) (Value.spreads_table.mp hb)

/-- **Operators act element by element.** Take any operator but the range operator and any two
values, scalars or valid tables. The result is a scalar exactly if both are. As a table, which for a
scalar has one cell, it is valid and has as many rows as the one with more rows and as many columns
as the one with more columns. Each place has what the operator on scalars gives for the scalars that
the two values have there, and `#N/A` where one of them has none. Where one has an error, the place
is an error: the left one wherever the right value has a scalar, else the right one, unless
arithmetic refuses text on the left first. -/
theorem operators_elementwise (hop : op ≠ .range) (hl : l.Valid) (hr : r.Valid) :
    ((∃ s, op.onValues l r = .scalar s) ↔ (∃ a, l = .scalar a) ∧ ∃ b, r = .scalar b) ∧
      let t := (op.onValues l r).toTable
      t.Valid ∧ t.rows = max l.toTable.rows r.toTable.rows ∧
        t.cols = max l.toTable.cols r.toTable.cols ∧
        ∀ row < t.rows, ∀ col < t.cols, ∃ s, t.get? row col = some s ∧
          (∀ s', op.Joins l r row col s' ↔ s' = s) ∧
          (∀ e, l.Spreads row col (.error e) ∨ r.Spreads row col (.error e) → s.isError) ∧
          (∀ e b, l.Spreads row col (.error e) → r.Spreads row col b → s = .error e) ∧
          ∀ a e, l.Spreads row col a → ¬ a.isError → r.Spreads row col (.error e) →
            s = .error e ∨ s = .error .value ∧ ∃ operation text, op = .arithmetic operation ∧
              a = .text text ∧ Number.ofText? text = none := by
  have hvalid : (op.onValues l r).toTable.Valid := (hl.onValues hr op).toTable
  obtain ⟨hrows, hcols⟩ := extents_onValues op hl hr
  refine ⟨onValues_eq_scalar, hvalid, hrows, hcols, fun row hrow col hcol => ?_⟩
  obtain ⟨s, hs⟩ := hvalid.exists_get? hrow hcol
  have hjoins := joins_of_get? hs
  refine ⟨s, hs, fun s' => ⟨fun h => h.unique hjoins, fun h => h ▸ hjoins⟩,
    fun e => hjoins.isError, ?_, ?_⟩
  · intro e b he hb
    rw [hjoins.eq_onScalars he hb, onScalars_error_left hop]
  · intro a e ha hnot he
    rw [hjoins.eq_onScalars ha he]
    exact onScalars_error_right hop hnot e

/-- A column of two cells and a block of three rows and two columns. The column repeats to the
right, its error wins over the one in the block, and its third row is not available. -/
theorem operators_elementwise_column :
    let column : Value := .table ⟨2, 1, #[.text "a", .error .reference]⟩
    let block : Value := .table
      ⟨3, 2, #[.bool true, .text "b", .blank, .error .number, .text "c", .text "d"]⟩
    BinaryOp.concat ≠ .range ∧ column.Valid ∧ block.Valid ∧
      concat.onValues column block = .table ⟨3, 2, #[.text "aTRUE", .text "ab", .error .reference,
        .error .reference, .error .notAvailable, .error .notAvailable]⟩ ∧
      concat.Joins column block 0 1 (.text "ab") ∧
      concat.Joins column block 1 1 (.error .reference) ∧
      concat.Joins column block 2 0 (.error .notAvailable) := by
  intro column block
  have hop : BinaryOp.concat ≠ .range := by decide
  have hcolumn : column.Valid := ⟨by decide, by decide, rfl⟩
  have hblock : block.Valid := ⟨by decide, by decide, rfl⟩
  have hvalue : concat.onValues column block = .table ⟨3, 2, #[.text "aTRUE", .text "ab",
      .error .reference, .error .reference, .error .notAvailable, .error .notAvailable]⟩ := by
    decide
  obtain ⟨-, -, -, -, hplaces⟩ := operators_elementwise hop hcolumn hblock
  rw [hvalue] at hplaces
  obtain ⟨_, hfirst, hjoinsFirst, -⟩ := hplaces 0 (by decide) 1 (by decide)
  obtain ⟨_, hsecond, hjoinsSecond, -⟩ := hplaces 1 (by decide) 1 (by decide)
  obtain ⟨_, hthird, hjoinsThird, -⟩ := hplaces 2 (by decide) 0 (by decide)
  cases hfirst
  cases hsecond
  cases hthird
  exact ⟨hop, hcolumn, hblock, hvalue, (hjoinsFirst _).mpr rfl, (hjoinsSecond _).mpr rfl,
    (hjoinsThird _).mpr rfl⟩

end BinaryOp

end Spreadsheet
