-- SUMMARY: What stands at the nodes of an expression that is read from text.
import Spreadsheet.Proofs.Grammar
import Spreadsheet.Proofs.Placement

/-!
# The nodes of what is read

An expression that text is read as is put together of constants, references, names and tables of
constants. The areas among its nodes are well formed, and the tables have a cell for each place.
All references in it lie in the grid, and no constant of it is the marker of a circle.
-/

namespace Spreadsheet

/-- What the rows of a table show is a cell of it, or a blank where it has none. -/
theorem Table.mem_cells_or_blank {t : Table} {s : Scalar} (h : s ∈ t.toRows.flatten) :
    s ∈ t.cells ∨ s = .blank := by
  simp only [toRows, List.mem_flatten, List.mem_map] at h
  obtain ⟨_, ⟨row, -, rfl⟩, h⟩ := h
  obtain ⟨col, -, rfl⟩ := List.mem_map.mp h
  cases hcell : t.get? row col with
  | none => exact .inr rfl
  | some s =>
      rw [get?, Option.ite_none_right_eq_some] at hcell
      exact .inl (Array.mem_of_getElem? hcell.2)

namespace Formula

/-! ## Nodes of nodes -/

namespace Expr

theorem mem_nodes (e : Expr) : e ∈ e.nodes := by
  cases e <;> exact List.mem_cons_self

mutual

/-- The nodes of a node are nodes. -/
theorem nodes_subset {e node : Expr} (h : node ∈ e.nodes) : node.nodes ⊆ e.nodes := by
  match e with
  | .literal _ | .cell _ _ | .area _ _ | .name _ =>
      obtain rfl := List.mem_singleton.mp h
      exact List.Subset.refl _
  | .table t =>
      simp only [nodes, List.mem_cons, List.mem_map] at h
      obtain rfl | ⟨s, hs, rfl⟩ := h
      · exact List.Subset.refl _
      · refine List.cons_subset.mpr ⟨List.mem_cons_of_mem _ ?_, List.nil_subset _⟩
        exact List.mem_map_of_mem hs
  | .unary op e =>
      simp only [nodes, List.mem_cons] at h
      obtain rfl | h := h
      · exact List.Subset.refl _
      · exact List.subset_cons_of_subset _ (nodes_subset h)
  | .binary op l r =>
      simp only [nodes, List.mem_cons, List.mem_append] at h
      obtain rfl | h | h := h
      · exact List.Subset.refl _
      · exact List.subset_cons_of_subset _ (List.subset_append_of_subset_left _ (nodes_subset h))
      · exact List.subset_cons_of_subset _ (List.subset_append_of_subset_right _ (nodes_subset h))
  | .call function es =>
      simp only [nodes, List.mem_cons] at h
      obtain rfl | h := h
      · exact List.Subset.refl _
      · exact List.subset_cons_of_subset _ (nodesOf_subset h)
  | .union es =>
      simp only [nodes, List.mem_cons] at h
      obtain rfl | h := h
      · exact List.Subset.refl _
      · exact List.subset_cons_of_subset _ (nodesOf_subset h)

theorem nodesOf_subset {es : List Expr} {node : Expr} (h : node ∈ nodesOf es) :
    node.nodes ⊆ nodesOf es := by
  match es with
  | [] => cases h
  | e :: es =>
      simp only [nodesOf, List.mem_append] at h
      obtain h | h := h
      · exact List.subset_append_of_subset_left _ (nodes_subset h)
      · exact List.subset_append_of_subset_right _ (nodesOf_subset h)

end

theorem nodes_subset_nodesOf {e : Expr} {es : List Expr} (h : e ∈ es) : e.nodes ⊆ nodesOf es := by
  induction h with
  | head => exact List.subset_append_left _ _
  | tail _ _ ih => exact List.subset_append_of_subset_right _ ih

end Expr

/-! ## Tables of constants -/

variable {ts : List Token} {token : Token} {e : Expr} {t : Table}

theorem Separated.ne_nil {α : Type} {symbol : String} {Part : List Token → α → Prop} {as : List α}
    (h : Separated symbol Part ts as) : as ≠ [] := by
  cases h <;> exact List.cons_ne_nil _ _

/-- Each part stands somewhere among the tokens. -/
theorem Separated.exists_part {α : Type} {symbol : String} {Part : List Token → α → Prop}
    {as : List α} (h : Separated symbol Part ts as) : ∀ a ∈ as, ∃ us, Part us a := by
  induction h with
  | single ha => exact List.forall_mem_singleton.mpr ⟨_, ha⟩
  | cons ha _ _ ih => exact List.forall_mem_cons.mpr ⟨⟨_, ha⟩, ih⟩

/-- A table has a row and a column at least, since no row is empty, and all rows are of one
length. -/
theorem Tabular.valid (h : Tabular ts t) : t.Valid := by
  cases h with
  | @intro rows width hrows hwidth =>
      obtain ⟨row, hrow⟩ := List.exists_mem_of_ne_nil rows hrows.ne_nil
      obtain ⟨us, hus⟩ := hrows.exists_part row hrow
      refine ⟨List.length_pos_of_mem hrow, ?_, ?_⟩
      · exact hwidth row hrow ▸ List.length_pos_iff.mpr hus.ne_nil
      · have hlengths : rows.map List.length = List.replicate rows.length width :=
          List.eq_replicate_iff.mpr ⟨List.length_map _, List.forall_mem_map.mpr hwidth⟩
        rw [List.size_toArray, List.length_flatten, hlengths, List.sum_replicate_nat]

/-! ## Constants -/

theorem Grammar.constantOf?_ne_circular {s : Scalar} (h : constantOf? token = some (.ok s)) :
    s ≠ .error .circular := by
  unfold constantOf? at h
  split at h
  · split at h
    · cases h
      simp
    · cases h
  · cases h
    simp
  · cases h
    simp
  · split at h
    · rename_i e he
      cases h
      -- the marker is not among the error values that can be written
      have hmem : e ∈ ErrorValue.literals := List.mem_of_find?_eq_some he
      rintro h
      cases h
      exact absurd hmem (by decide)
    · cases h
  · cases h

theorem Constant.ne_circular {s : Scalar} (h : Constant ts s) : s ≠ .error .circular := by
  cases h with
  | plain h => exact Grammar.constantOf?_ne_circular h
  | plus _ _ _ | minus _ _ _ => nofun

theorem Tabular.ne_circular (h : Tabular ts t) {s : Scalar} (hs : s ∈ t.toRows.flatten) :
    s ≠ .error .circular := by
  cases h with
  | intro hrows _ =>
      obtain hs | rfl := Table.mem_cells_or_blank hs
      · obtain ⟨row, hrow, hs⟩ := List.mem_flatten.mp (List.mem_toArray.mp hs)
        obtain ⟨_, hparts⟩ := hrows.exists_part row hrow
        obtain ⟨_, hconstant⟩ := hparts.exists_part s hs
        exact hconstant.ne_circular
      · nofun

/-! ## References -/

/-- A token that is read as a reference gives a well-formed area or a cell of the grid. -/
theorem Grammar.referenceOf_cases (h : referenceOf token = .ok e) :
    (∃ sheet? corners, corners.WellFormed ∧ e = .area sheet? corners) ∨
      ∃ sheet? coord, coord.InGrid ∧ e = .cell sheet? coord := by
  unfold referenceOf at h
  simp only [mapError_eq_ok, bind_eq_ok] at h
  obtain ⟨⟨sheet, body⟩, -, h⟩ := h
  dsimp only at h
  split at h
  · simp only [bind_eq_ok, pure_eq_ok] at h
    obtain ⟨corners, hcorners, rfl⟩ := h
    exact .inl ⟨sheet, corners, Reference.wellFormed_of_readCorners hcorners, rfl⟩
  · simp only [bind_eq_ok, pure_eq_ok] at h
    obtain ⟨coord, hcoord, rfl⟩ := h
    exact .inr ⟨sheet, coord, Coord.inGrid_of_ofChars hcoord, rfl⟩

/-! ## Nodes -/

/-- What one token can be read as. -/
inductive Atomic : Expr → Prop where
  | literal (s : Scalar) : Atomic (.literal s)
  | cell {coord : Coord} (sheet? : Option String) (h : coord.InGrid) : Atomic (.cell sheet? coord)
  | area {corners : Corners} (sheet? : Option String) (h : corners.WellFormed) :
      Atomic (.area sheet? corners)
  | name (word : String) : Atomic (.name word)

theorem Atom.atomic (h : Atom token e) : Atomic e := by
  cases h with
  | constant h => exact .literal _
  | name h => exact .name _
  | reference _ h =>
      obtain ⟨sheet?, _, hcorners, rfl⟩ | ⟨sheet?, _, hcoord, rfl⟩ := Grammar.referenceOf_cases h
      · exact .area sheet? hcorners
      · exact .cell sheet? hcoord

theorem Atomic.nodes (h : Atomic e) : e.nodes = [e] := by
  cases h <;> rfl

/-- What can stand at a node: what one token is read as, a table, a constant in it, or what is put
together of other expressions. -/
inductive Node : Expr → Prop where
  | atom {token : Token} {e : Expr} (h : Atom token e) : Node e
  | table {ts : List Token} {t : Table} (h : Tabular ts t) : Node (.table t)
  | constant {ts : List Token} {t : Table} (h : Tabular ts t) {s : Scalar}
      (hs : s ∈ t.toRows.flatten) : Node (.literal s)
  | unary (op : UnaryOp) (e : Expr) : Node (.unary op e)
  | binary (op : BinaryOp) (l r : Expr) : Node (.binary op l r)
  | call (function : String) (es : List Expr) : Node (.call function es)
  | union (es : List Expr) : Node (.union es)

mutual

theorem Derives.node {p : Phrase} {ts : List Token} {e : Expr} :
    Derives p ts e → ∀ node ∈ e.nodes, Node node
  | .tighter _ he | .plus _ he | .group _ he _ => he.node
  | .binary _ _ hl _ hr => by
      simp only [Expr.nodes, List.forall_mem_cons, List.forall_mem_append]
      exact ⟨.binary _ _ _, hl.node, hr.node⟩
  | .percent he _ | .minus _ he => by
      simp only [Expr.nodes, List.forall_mem_cons]
      exact ⟨.unary _ _, he.node⟩
  | .atom he => by
      rw [he.atomic.nodes]
      exact List.forall_mem_singleton.mpr (.atom he)
  | .noArguments _ _ _ => List.forall_mem_singleton.mpr (.call _ _)
  | .call _ _ hes _ => by
      simp only [Expr.nodes, List.forall_mem_cons]
      exact ⟨.call _ _, separated_node hes⟩
  | .union _ hes _ => by
      rw [Expr.nodes, List.forall_mem_cons]
      exact ⟨.union _, separated_node hes⟩
  | .table _ ht _ => by
      simp only [Expr.nodes, List.forall_mem_cons, List.forall_mem_map]
      exact ⟨.table ht, fun s hs => .constant ht hs⟩

theorem separated_node {ts : List Token} {es : List Expr} :
    Separated "," (Derives .comparison) ts es → ∀ node ∈ Expr.nodesOf es, Node node
  | .single he => by
      rw [Expr.nodesOf, Expr.nodesOf, List.append_nil]
      exact he.node
  | .cons he _ hes => by
      rw [Expr.nodesOf, List.forall_mem_append]
      exact ⟨he.node, separated_node hes⟩

end

theorem Node.inGrid {sheet? : Option String} {coord : Coord} (h : Node (.cell sheet? coord)) :
    coord.InGrid := by
  cases h with
  | atom h =>
      cases h.atomic with
      | cell _ h => exact h

theorem Node.wellFormed {sheet? : Option String} {corners : Corners}
    (h : Node (.area sheet? corners)) : corners.WellFormed := by
  cases h with
  | atom h =>
      cases h.atomic with
      | area _ h => exact h

theorem Node.valid (h : Node (.table t)) : t.Valid := by
  cases h with
  | atom h => cases h.atomic
  | table h => exact h.valid

theorem Node.ne_circular {s : Scalar} (h : Node (.literal s)) : s ≠ .error .circular := by
  cases h with
  | atom h =>
      cases h with
      | constant h => exact Grammar.constantOf?_ne_circular h
      | reference _ h =>
          obtain ⟨_, _, -, he⟩ | ⟨_, _, -, he⟩ := Grammar.referenceOf_cases h <;> cases he
  | constant ht hs => exact ht.ne_circular hs

theorem Node.written (h : Node e) : e.WrittenNode := by
  cases e with
  | literal s => exact h.ne_circular
  | cell sheet? coord => exact h.inGrid
  | area sheet? corners => exact h.wellFormed.toInGrid
  | _ => trivial

/-- The nodes of an expression that text is read as. -/
theorem Expr.node_of_ofText {entered : String} (h : Expr.ofText entered = .ok e) :
    ∀ node ∈ e.nodes, Node node := by
  simp only [Expr.ofText, Expr.ofBody, bind_eq_ok] at h
  obtain ⟨tokens, -, h⟩ := h
  exact (Expr.ofTokens_eq_ok.mp h).node

/-- All references in an expression that text is read as lie in the grid, and no constant is the
marker of a circle. -/
theorem Expr.written_of_ofText {entered : String} (h : Expr.ofText entered = .ok e) : e.Written :=
  fun node hnode => (Expr.node_of_ofText h node hnode).written

end Formula

namespace Registry

variable {registry : Registry} {text : String} {e : Formula.Expr}

theorem written_of_readFormula (h : registry.readFormula text = .ok e) : e.Written :=
  Formula.Expr.written_of_ofText (readFormula_eq_ok.mp h).1

theorem proper_of_readFormula (h : registry.readFormula text = .ok e) : e.Proper :=
  (written_of_readFormula h).proper

end Registry

end Spreadsheet
