-- SUMMARY: Standards that ask for something in each cell, upheld by the built-in functions.
import Spreadsheet.Proofs.Standards

/-!
# Standards for the cells of tables

Some standards ask nothing of areas, and look at the cells of a table one by one: a table upholds
them still when the scalars in its cells are replaced by others that do, and so do its rows and its
columns. The built-in functions uphold all such standards, since what they give is a constant, a
count, a sum that is checked, or made of the cells of an argument. Among these standards are those
that ask for nothing but the shape of tables.
-/

namespace Spreadsheet

/-- The standard asks nothing of areas, holds of what functions make up, and looks at the cells of a
table one by one. A scalar counts as the table of one cell. -/
structure Standard.Cellwise (std : Standard) : Prop extends std.Grounded where
  areas : ∀ area, std.area area
  result : ∀ x, std.value (.scalar (.ofResult x))
  count : ∀ n, std.value (.number (Number.ofCount n))
  cells : ∀ t, std.used t → ∀ s ∈ t.cells.toList, std.value (.scalar s)
  toScalar : ∀ v, std.value v → std.value (.scalar v.toScalar)
  map : ∀ v f, std.value v → (∀ s, std.value (.scalar s) → std.value (.scalar (f s))) →
    std.value (v.map f)
  slice : ∀ v part, std.value v → std.value (Function.sliceOfTable v.toTable part)

/-- The standard asks for nothing but the shape of tables, and parts of a table uphold it with the
table. -/
structure Standard.OfShapes (std : Standard) : Prop where
  areas : ∀ area, std.area area
  scalar : ∀ s, std.value (.scalar s)
  map : ∀ v f, std.value v → std.value (v.map f)
  slice : ∀ v part, std.value v → std.value (Function.sliceOfTable v.toTable part)

variable {std : Standard}

theorem Standard.OfShapes.grounded (h : std.OfShapes)
    (hused : ∀ t, std.value (.table t) → std.used t) : std.Grounded where
  blank := h.scalar _
  bool _ := h.scalar _
  text _ := h.scalar _
  error _ := h.scalar _
  number _ _ _ _ := h.scalar _
  used := hused

theorem Standard.OfShapes.cellwise (h : std.OfShapes)
    (hused : ∀ t, std.value (.table t) → std.used t) : std.Cellwise where
  toGrounded := h.grounded hused
  areas := h.areas
  result _ := h.scalar _
  count _ := h.scalar _
  cells _ _ _ _ := h.scalar _
  toScalar _ _ := h.scalar _
  map v f hv _ := h.map v f hv
  slice := h.slice

namespace Function

variable {args : List Argument} {name : String} {least : Nat} {most : Option Nat}
  {params : List ParamKind}

/-! ## The numbers of the arguments -/

theorem forall_of_mapM {α β ε : Type} {f : α → Except ε β} {p : β → Prop} {as : List α}
    {bs : List β} (hf : ∀ a ∈ as, ∀ b, f a = .ok b → p b) (h : as.mapM f = .ok bs) :
    ∀ b ∈ bs, p b := by
  induction as generalizing bs with
  | nil =>
      cases h
      exact List.forall_mem_nil _
  | cons a as ih =>
      obtain ⟨hfa, hf⟩ := List.forall_mem_cons.mp hf
      rw [List.mapM_cons] at h
      simp only [bind_eq_ok, pure_eq_ok] at h
      obtain ⟨b, hb, bs', hbs, rfl⟩ := h
      exact List.forall_mem_cons.mpr ⟨hfa b hb, ih hf hbs⟩

/-- A number that is taken from an argument upholds what the argument does. -/
theorem number_of_argumentNumbers (h : std.Cellwise) {arg : Argument} (harg : arg.Upholds std)
    {xs : List Float} (hxs : argumentNumbers arg = .ok xs) :
    ∀ x ∈ xs, std.value (.number x) := by
  cases arg with
  | value v =>
      obtain ⟨x, hx, rfl⟩ := map_eq_ok.mp hxs
      exact List.forall_mem_singleton.mpr (h.number v x harg hx)
  | areas tables =>
      refine forall_of_mapM (fun r hr x hrx => ?_) hxs
      obtain ⟨t, ht, hcell⟩ := List.mem_flatMap.mp hr
      obtain ⟨s, hs, hnumber⟩ := List.mem_filterMap.mp hcell
      have hvalue := h.cells t (harg t ht) s hs
      cases s with
      | number y =>
          obtain rfl : y = x := Except.ok.inj ((Option.some.inj hnumber).trans hrx)
          exact hvalue
      | error e => cases (Option.some.inj hnumber).trans hrx
      | blank | bool b | text s => cases hnumber
  | reference r =>
      cases hxs
      exact List.forall_mem_nil _
  | lazy =>
      cases hxs
      exact List.forall_mem_nil _

theorem number_of_numbers (h : std.Cellwise) (hargs : ∀ arg ∈ args, arg.Upholds std)
    {xs : List Float} (hxs : numbers args = .ok xs) : ∀ x ∈ xs, std.value (.number x) := by
  obtain ⟨yss, hyss, rfl⟩ := map_eq_ok.mp hxs
  have hall := forall_of_mapM (fun arg harg ys => number_of_argumentNumbers h (hargs arg harg)) hyss
  intro x hx
  obtain ⟨ys, hys, hx⟩ := List.mem_flatten.mp hx
  exact hall ys hys x hx

theorem upholds_ofNumbers (h : std.Cellwise) {f : List Float → Scalar}
    (hf : ∀ xs, (∀ x ∈ xs, std.value (.number x)) → std.value (.scalar (f xs)))
    (hargs : ∀ arg ∈ args, arg.Upholds std) : std.value (ofNumbers f args) := by
  unfold ofNumbers
  split
  · rename_i xs hxs
    exact hf xs (number_of_numbers h hargs hxs)
  · exact h.error _

/-- One of two numbers is picked, again and again. -/
theorem upholds_pick (h : std.Cellwise) {choose : Float → Float → Float}
    (hchoose : ∀ x y, choose x y = x ∨ choose x y = y) {xs : List Float}
    (hxs : ∀ x ∈ xs, std.value (.number x)) : std.value (.scalar (pick choose xs)) := by
  cases xs with
  | nil => exact h.number .blank 0 h.blank rfl
  | cons x xs =>
      unfold pick
      induction xs generalizing x with
      | nil => exact hxs x List.mem_cons_self
      | cons y xs ih =>
          obtain ⟨hx, hy, hxs⟩ := List.forall_mem_cons.mp hxs |>.imp_right List.forall_mem_cons.mp
          refine ih (choose x y) (List.forall_mem_cons.mpr ⟨?_, hxs⟩)
          obtain heq | heq := hchoose x y <;> rw [heq]
          · exact hx
          · exact hy

theorem min_choice (x y : Float) : Number.min x y = x ∨ Number.min x y = y := by
  unfold Number.min
  split
  · exact .inr rfl
  · split
    · exact .inr rfl
    · exact .inl rfl

theorem max_choice (x y : Float) : Number.max x y = x ∨ Number.max x y = y := by
  unfold Number.max
  split
  · exact .inr rfl
  · split
    · exact .inr rfl
    · exact .inl rfl

/-! ## Functions -/

/-- The value of the first argument, a blank without one, upholds what the arguments do. -/
theorem upholds_firstValue (hblank : std.value .blank) (hargs : ∀ arg ∈ args, arg.Upholds std) :
    std.value ((args.head?.bind Argument.value?).getD .blank) := by
  match args with
  | [] => exact hblank
  | .value v :: _ => exact hargs _ List.mem_cons_self
  | .areas _ :: _ | .reference _ :: _ | .lazy :: _ => exact hblank

variable (h : std.Cellwise)
include h

theorem upholds_sizeValue (part : Nat × Nat → Nat) (args : List Argument) :
    std.value (sizeValue part args) := by
  unfold sizeValue
  split
  · exact h.count _
  · exact h.error _

theorem upholds_areas (args : List Argument) : std.value (areas args) := by
  unfold areas
  split
  · exact h.count _
  · exact h.error _
  · exact h.error _

theorem upholds_address (args : List Argument) : std.value (address args) := by
  unfold address
  split
  · split
    · exact h.error _
    · split
      · exact h.error _
      · exact h.text _
  · exact h.error _

theorem upholds_ofBools (f : List Bool → Bool) (args : List Argument) :
    std.value (ofBools f args) := by
  unfold ofBools
  split
  · exact h.bool _
  · exact h.error _

theorem upholds_not (args : List Argument) : std.value (not args) := by
  unfold not
  split
  · exact h.bool _
  · exact h.error _

theorem upholds_isReference (args : List Argument) : std.value (isReference args) := by
  unfold isReference
  split <;> exact h.bool _

theorem upholds_ifElse (site : Site) (args : List Argument) : (ifElse site args).Upholds std := by
  unfold ifElse
  split
  · exact fun _ hv => hv
  · split
    · exact fun _ hv => hv
    · exact h.bool _

theorem upholds_test (holds : Scalar → Bool) :
    Function.Upholds std ⟨name, least, most, params, .pure (test holds)⟩ :=
  fun _ hargs => h.map _ _ (upholds_firstValue h.blank hargs) fun _ _ => h.bool _

theorem upholds_positionOf (ofCell : CellAddress → Nat) (site : Site) (args : List Argument) :
    (positionOf ofCell site args).Upholds std := by
  unfold positionOf
  split
  · exact h.count _
  · split
    · exact h.count _
    · exact h.error _

/-- Errors in a table are replaced by a scalar that upholds the standard. -/
theorem upholds_replaceErrors (catches : ErrorValue → Bool)
    (hargs : ∀ arg ∈ args, arg.Upholds std) : (replaceErrors catches args).Upholds std := by
  have hvalue := upholds_firstValue h.blank hargs
  unfold replaceErrors
  dsimp only
  split
  · rename_i s hs
    rw [hs] at hvalue
    split
    · exact fun _ hv => hv
    · exact hvalue
  · rename_i t ht
    rw [ht] at hvalue
    split
    · intro v hv
      refine h.map (.table t) _ hvalue fun s hs => ?_
      split
      · exact h.toScalar v hv
      · exact hs
    · exact hvalue

theorem upholds_offset (site : Site) (args : List Argument) :
    (offset site args).Upholds std := by
  unfold offset
  split
  · exact h.error _
  · split
    · exact fun _ _ => h.areas _
    · exact h.error _

theorem upholds_indirect (site : Site) (args : List Argument) :
    (indirect site args).Upholds std := by
  unfold indirect
  dsimp only
  split
  · exact h.error _
  · split
    · exact h.error _
    · split
      · exact fun _ _ => h.areas _
      · exact h.error _

theorem upholds_index (site : Site) (hargs : ∀ arg ∈ args, arg.Upholds std) :
    (index site args).Upholds std := by
  unfold index
  dsimp only
  split
  · split
    · exact h.error _
    · split
      · exact h.error _
      · split
        · exact fun _ _ => h.areas _
        · exact h.error _
  · exact h.error _
  · rename_i v _ hv
    have hvalue : std.value v := hargs _ (List.mem_of_head? hv)
    split
    · exact h.error _
    · split
      · exact h.slice v _ hvalue
      · exact h.error _
  · exact h.error _

theorem upholds_average {xs : List Float} : std.value (.scalar
    (if xs.isEmpty then .error .divisionByZero
      else .ofResult (total xs / Number.ofCount xs.length))) := by
  split
  · exact h.error _
  · exact h.result _

end Function

/-- The built-in functions uphold every standard for the cells of tables. -/
theorem Registry.builtins_cellwise (h : std.Cellwise) :
    ∀ f ∈ Registry.builtins.functions, f.Upholds std := by
  simp only [builtins, List.forall_mem_append]
  refine ⟨⟨⟨?_, ?_⟩, ?_⟩, ?_⟩
  · simp only [references, List.forall_mem_cons, List.not_mem_nil, false_implies, implies_true,
      and_true]
    refine ⟨?_, ?_, ?_, ?_, ?_, ?_, ?_, ?_, ?_⟩
    · exact fun site args _ _ => Function.upholds_offset h site args
    · exact fun site _ _ hargs => Function.upholds_index h site hargs
    · exact fun site args _ _ => Function.upholds_indirect h site args
    · exact fun site args _ => Function.upholds_positionOf h _ site args
    · exact fun site args _ => Function.upholds_positionOf h _ site args
    · exact fun args _ => Function.upholds_sizeValue h _ args
    · exact fun args _ => Function.upholds_sizeValue h _ args
    · exact fun args _ => Function.upholds_areas h args
    · exact fun args _ => Function.upholds_address h args
  · simp only [logic, List.forall_mem_cons, List.not_mem_nil, false_implies, implies_true,
      and_true]
    refine ⟨?_, ?_, ?_, ?_, ?_, ?_⟩
    · exact fun site args _ => Function.upholds_ifElse h site args
    · exact fun args _ => Function.upholds_ofBools h _ args
    · exact fun args _ => Function.upholds_ofBools h _ args
    · exact fun args _ => Function.upholds_not h args
    · exact fun _ _ hargs => Function.upholds_replaceErrors h _ hargs
    · exact fun _ _ hargs => Function.upholds_replaceErrors h _ hargs
  · simp only [information, List.forall_mem_cons, List.not_mem_nil, false_implies, implies_true,
      and_true]
    refine ⟨?_, ?_, ?_, ?_, ?_, ?_, ?_, ?_, ?_⟩
    iterate 7 exact Function.upholds_test h _
    · exact fun args _ => Function.upholds_isReference h args
    · exact fun _ _ => h.error _
  · simp only [aggregates, List.forall_mem_cons, List.not_mem_nil, false_implies, implies_true,
      and_true]
    refine ⟨?_, ?_, ?_, ?_, ?_, ?_⟩
    · exact fun _ => Function.upholds_ofNumbers h fun _ _ => h.result _
    · exact fun _ _ => h.count _
    · exact fun _ _ => h.count _
    · exact fun _ => Function.upholds_ofNumbers h fun _ _ => Function.upholds_average h
    · exact fun _ => Function.upholds_ofNumbers h fun _ =>
        Function.upholds_pick h Function.min_choice
    · exact fun _ => Function.upholds_ofNumbers h fun _ =>
        Function.upholds_pick h Function.max_choice

end Spreadsheet
