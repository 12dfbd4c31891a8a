-- SUMMARY: What the built-in functions depend on: their arguments up to blanks, and their place.
import Mathlib.Data.List.Forall2
import Spreadsheet.Evaluation.Expression

/-!
# What functions depend on

The functions that take the used cells of areas pass over blanks, so they cannot tell tables
apart that differ in blanks only. All functions see of their site is the cell, the names of
the sheets and the defined names. The references they give keep the properties of those
they are given.
-/

namespace Spreadsheet

/-! ## Alike arguments -/

/-- The same scalars in the same order, blanks left out. -/
def Table.Alike (t t' : Table) : Prop :=
  t.cells.toList.filter (!·.isBlank) = t'.cells.toList.filter (!·.isBlank)

namespace Argument

/-- The same argument, tables of used cells up to blanks. -/
inductive Alike : Argument → Argument → Prop where
  | value (v : Value) : Alike (.value v) (.value v)
  | areas {ts ts' : List Table} : List.Forall₂ Table.Alike ts ts' → Alike (.areas ts) (.areas ts')
  | reference (r : Reference) : Alike (.reference r) (.reference r)
  | lazy : Alike .lazy .lazy

/-- The areas of a reference have the property. -/
def All (ok : Area → Prop) : Argument → Prop
  | .reference r => ∀ area ∈ r.areas, ok area
  | _ => True

end Argument

/-- The areas of a reference have the property. -/
def Operand.All (ok : Area → Prop) : Operand → Prop
  | .reference r => ∀ area ∈ r.areas, ok area
  | .value _ => True

namespace Function

variable {args args' : List Argument} {t t' : Table} {ts ts' : List Table}

theorem filterMap_congr {β : Type} {f : Scalar → Option β} (hf : f .blank = none)
    (h : t.Alike t') : t.cells.toList.filterMap f = t'.cells.toList.filterMap f := by
  have hskip (l : List Scalar) : (l.filter (!·.isBlank)).filterMap f = l.filterMap f := by
    rw [List.filterMap_filter]
    congr 1
    funext s
    cases s <;> simp [Scalar.isBlank, hf]
  rw [← hskip, ← hskip t'.cells.toList, h]

theorem flatMap_filterMap_congr {β : Type} {f : Scalar → Option β} (hf : f .blank = none)
    (h : List.Forall₂ Table.Alike ts ts') :
    (ts.flatMap fun t => t.cells.toList.filterMap f) =
      ts'.flatMap fun t => t.cells.toList.filterMap f := by
  induction h with
  | nil => rfl
  | cons ht _ ih => rw [List.flatMap_cons, List.flatMap_cons, filterMap_congr hf ht, ih]

theorem countP_congr {p : Scalar → Bool} (hp : p .blank = false)
    (h : List.Forall₂ Table.Alike ts ts') :
    (ts.flatMap fun t => t.cells.toList).countP p =
      (ts'.flatMap fun t => t.cells.toList).countP p := by
  have hskip (l : List Scalar) : l.countP p = (l.filter (!·.isBlank)).countP p := by
    rw [List.countP_filter]
    congr 1
    funext s
    cases s <;> simp [Scalar.isBlank, hp]
  induction h with
  | nil => rfl
  | @cons t t' _ _ ht _ ih =>
      rw [List.flatMap_cons, List.flatMap_cons, List.countP_append, List.countP_append, ih,
        hskip t.cells.toList, hskip t'.cells.toList, ht]

/-! ## Aggregates -/

theorem mapM_congr {β : Type} {f : Argument → Except ErrorValue β}
    (hf : ∀ a a', a.Alike a' → f a = f a') (h : List.Forall₂ Argument.Alike args args') :
    args.mapM f = args'.mapM f := by
  induction h with
  | nil => rfl
  | cons ha _ ih => rw [List.mapM_cons, List.mapM_cons, hf _ _ ha, ih]

theorem ofNumbers_congr (f : List Float → Scalar) (h : List.Forall₂ Argument.Alike args args') :
    ofNumbers f args = ofNumbers f args' := by
  unfold ofNumbers numbers
  rw [mapM_congr (fun a a' ha => ?_) h]
  cases ha with
  | areas hts => exact congrArg (List.mapM id) (flatMap_filterMap_congr rfl hts)
  | value _ | reference _ | lazy => rfl

theorem ofBools_congr (f : List Bool → Bool) (h : List.Forall₂ Argument.Alike args args') :
    ofBools f args = ofBools f args' := by
  unfold ofBools bools
  rw [mapM_congr (fun a a' ha => ?_) h]
  cases ha with
  | areas hts => exact congrArg (List.mapM id) (flatMap_filterMap_congr rfl hts)
  | value _ | reference _ | lazy => rfl

theorem countWhere_congr (direct : Value → Bool) {cell : Scalar → Bool}
    (hcell : cell .blank = false) (h : List.Forall₂ Argument.Alike args args') :
    countWhere direct cell args = countWhere direct cell args' := by
  have hcount {a a' : Argument} (ha : a.Alike a') :
      countIn direct cell a = countIn direct cell a' := by
    cases ha with
    | value v => rfl
    | areas hts => exact countP_congr hcell hts
    | reference r => rfl
    | lazy => rfl
  unfold countWhere
  generalize 0 = count
  induction h generalizing count with
  | nil => rfl
  | cons ha _ ih => rw [List.foldl_cons, List.foldl_cons, hcount ha, ih]

theorem count_congr (h : List.Forall₂ Argument.Alike args args') : count args = count args' := by
  unfold count
  rw [countWhere_congr _ rfl h]

theorem countFilled_congr (h : List.Forall₂ Argument.Alike args args') :
    countFilled args = countFilled args' := by
  unfold countFilled
  rw [countWhere_congr _ rfl h]

end Function

theorem Operand.area_eq_ok {o : Operand} {area : Area} : o.area = .ok area ↔ o = .ofArea area := by
  constructor
  · intro h
    cases o with
    | value v =>
        cases v with
        | scalar s => cases s <;> cases h
        | table t => cases h
    | reference r =>
        obtain ⟨areas⟩ := r
        match areas, h with
        | [a], h => cases h; rfl
        | [], h => cases h
        | _ :: _ :: _, h => cases h
  · rintro rfl
    rfl

/-- The range operator gives the area around two areas, or an error. -/
theorem Operand.between_cases (a b : Operand) :
    (∃ left right area, a = .ofArea left ∧ b = .ofArea right ∧ left.bounding right = .ok area ∧
      a.between b = .ofArea area) ∨ ∃ e, a.between b = .error e := by
  unfold between
  split
  · rename_i left right hleft hright
    split
    · rename_i area harea
      exact .inl ⟨left, right, area, area_eq_ok.mp hleft, area_eq_ok.mp hright, harea, rfl⟩
    · exact .inr ⟨_, rfl⟩
  · exact .inr ⟨_, rfl⟩
  · exact .inr ⟨_, rfl⟩

/-! ## Places -/

/-- The sites are the same to a function. -/
structure Site.SamePlace (site site' : Site) : Prop where
  cell : site'.cell = site.cell
  sheetName : site'.source.sheetName? = site.source.sheetName?
  nameTarget : site'.source.nameTarget? = site.source.nameTarget?

/-- The property passes from the areas of references to the areas made from them, and holds of
those that a site makes up. -/
structure Site.Keeps (site : Site) (ok : Area → Prop) : Prop where
  bounding : ∀ a b area, ok a → ok b → a.bounding b = .ok area → ok area
  offset : ∀ base dRow dCol height width area, ok base →
    base.offset dRow dCol height width = .ok area → ok area
  slice : ∀ area rowNum colNum? part, ok area →
    Function.slice area.height area.width rowNum colNum? = .ok part →
    ok (Function.sliceOfArea area part)
  indirect : ∀ args, (Function.indirect site args).All ok
  named : ∀ word, (site.named word).All ok

namespace Function

/-- What a call depends on: a function that takes used cells cannot see blanks, the others see of
their site only the place, and references come from references. -/
def Regular (f : Function) : Prop :=
  match f.implementation with
  | .pure g => .areas ∈ f.params →
    ∀ args args', List.Forall₂ Argument.Alike args args' → g args = g args'
  | .contextual g => .areas ∉ f.params ∧
    ∀ site site' args, Site.SamePlace site site' → g site args = g site' args
  | .reference g => .areas ∉ f.params ∧
    (∀ site site' args, Site.SamePlace site site' → g site args = g site' args) ∧
    ∀ site ok args, Site.Keeps site ok → (∀ arg ∈ args, arg.All ok) → (g site args).All ok
  | .abort => True

theorem mem_params_of_paramKind {f : Function} {index : Nat} (h : f.paramKind index ≠ .any) :
    f.paramKind index ∈ f.params := by
  unfold paramKind at h ⊢
  cases hi : f.params[index]? with
  | some kind =>
      simp only [Option.some_or, Option.getD_some]
      exact List.mem_of_getElem? hi
  | none =>
      cases hl : f.params.getLast? with
      | some kind =>
          simp only [Option.none_or, Option.getD_some]
          exact List.mem_of_getLast? hl
      | none => simp [hi, hl] at h

/-! ## Functions that give references -/

theorem area_ok {ok : Area → Prop} {arg? : Option Argument} (h : ∀ arg ∈ arg?, arg.All ok)
    {area : Area} (ha : areaArg arg? = .ok area) : ok area := by
  unfold areaArg at ha
  split at ha
  · obtain ⟨rfl⟩ := Operand.reference.inj (Operand.area_eq_ok.mp ha)
    exact h _ rfl area List.mem_cons_self
  · cases Operand.area_eq_ok.mp ha
  · cases ha

theorem offset_ok {ok : Area → Prop} {site : Site} {args : List Argument} (hsite : site.Keeps ok)
    (hargs : ∀ arg ∈ args, arg.All ok) : (offset site args).All ok := by
  unfold offset
  split
  · trivial
  · rename_i base hbase
    have hok : ok base := area_ok (fun arg h => hargs arg (List.mem_of_head? h)) hbase
    split
    · rename_i area harea
      exact List.forall_mem_singleton.mpr (hsite.offset _ _ _ _ _ _ hok harea)
    · trivial

theorem index_ok {ok : Area → Prop} {site : Site} {args : List Argument} (hsite : site.Keeps ok)
    (hargs : ∀ arg ∈ args, arg.All ok) : (index site args).All ok := by
  unfold index
  simp only []
  split
  · rename_i r hr
    have hok : ∀ area ∈ r.areas, ok area := hargs _ (List.mem_of_head? hr)
    split
    · trivial
    · split
      · trivial
      · rename_i area harea
        split
        · rename_i part hpart
          exact List.forall_mem_singleton.mpr
            (hsite.slice _ _ _ _ (hok area (List.mem_of_getElem? harea)) hpart)
        · trivial
  · trivial
  · split
    · trivial
    · split <;> trivial
  · trivial

theorem indirect_same {site site' : Site} (h : site.SamePlace site') (args : List Argument) :
    indirect site args = indirect site' args := by
  unfold indirect
  rw [h.cell, h.sheetName, h.nameTarget]

theorem positionOf_same {site site' : Site} (h : site.SamePlace site')
    (ofCell : CellAddress → Nat) (args : List Argument) :
    positionOf ofCell site args = positionOf ofCell site' args := by
  unfold positionOf
  rw [h.cell]

end Function

/-! ## The built-in functions -/

theorem Registry.builtins_regular : ∀ f ∈ Registry.builtins.functions, f.Regular := by
  have hpure (name : String) (least : Nat) (most : Option Nat) (params : List ParamKind)
      (g : List Argument → Value) (h : .areas ∉ params) :
      Function.Regular ⟨name, least, most, params, .pure g⟩ := fun hmem => absurd hmem h
  simp only [builtins, List.forall_mem_append]
  refine ⟨⟨⟨?_, ?_⟩, ?_⟩, ?_⟩
  · simp only [references, List.forall_mem_cons, List.not_mem_nil, false_implies, implies_true,
      and_true]
    refine ⟨?_, ?_, ?_, ?_, ?_, ?_, ?_, ?_, ?_⟩
    · exact ⟨by decide, fun _ _ _ _ => rfl, fun _ _ _ => Function.offset_ok⟩
    · exact ⟨by decide, fun _ _ _ _ => rfl, fun _ _ _ => Function.index_ok⟩
    · exact ⟨by decide, fun _ _ args h => Function.indirect_same h args,
        fun _ _ args h _ => h.indirect args⟩
    · exact ⟨by decide, fun _ _ args h => Function.positionOf_same h _ args⟩
    · exact ⟨by decide, fun _ _ args h => Function.positionOf_same h _ args⟩
    all_goals exact hpure _ _ _ _ _ (by decide)
  · simp only [logic, List.forall_mem_cons, List.not_mem_nil, false_implies, implies_true,
      and_true]
    refine ⟨?_, ?_, ?_, ?_, ?_, ?_⟩
    · exact ⟨by decide, fun _ _ _ _ => rfl⟩
    · exact fun _ _ _ h => Function.ofBools_congr _ h
    · exact fun _ _ _ h => Function.ofBools_congr _ h
    · exact hpure _ _ _ _ _ (by decide)
    · exact ⟨by decide, fun _ _ _ _ => rfl⟩
    · exact ⟨by decide, fun _ _ _ _ => rfl⟩
  · simp only [information, List.forall_mem_cons, List.not_mem_nil, false_implies, implies_true,
      and_true]
    refine ⟨?_, ?_, ?_, ?_, ?_, ?_, ?_, ?_, ?_⟩
    all_goals exact hpure _ _ _ _ _ (by decide)
  · simp only [aggregates, List.forall_mem_cons, List.not_mem_nil, false_implies, implies_true,
      and_true]
    refine ⟨?_, ?_, ?_, ?_, ?_, ?_⟩
    · exact fun _ _ _ h => Function.ofNumbers_congr _ h
    · exact fun _ _ _ h => Function.count_congr h
    · exact fun _ _ _ h => Function.countFilled_congr h
    all_goals exact fun _ _ _ h => Function.ofNumbers_congr _ h

end Spreadsheet
