-- SUMMARY: What relates the readings of areas at two sites relates what expressions inquire there.
import Spreadsheet.Proofs.Function
import Spreadsheet.Proofs.Inquiry

/-!
# Expressions at two sites

Expressions inquire by reading areas and by nothing else. So a relation between inquiries
that composition respects holds between the inquiries of an expression at two sites as soon
as it holds between the readings of areas there, by recursion on the expression.
-/

namespace Spreadsheet

open Inquiry

/-- A relation between inquiries for each relation between results. -/
abbrev Relator : Type 1 :=
  ∀ {α β : Type}, (α → β → Prop) → Inquiry α → Inquiry β → Prop

/-- Composition respects the relation, and so do the failures of some kind. -/
structure Relator.Congruence (P : Relator) (fails : Failure → Prop) : Prop where
  done : ∀ {α β : Type} {R : α → β → Prop} {a : α} {b : β}, R a b → P R (.done a) (.done b)
  fail : ∀ {α β : Type} {R : α → β → Prop} {failure : Failure}, fails failure →
    P R (.fail failure) (.fail failure)
  bind : ∀ {α β γ δ : Type} {R : α → β → Prop} {S : γ → δ → Prop} {q : Inquiry α}
    {q' : Inquiry β} {f : α → Inquiry γ} {f' : β → Inquiry δ}, P R q q' →
    (∀ a b, R a b → P S (f a) (f' b)) → P S (q.bind f) (q'.bind f')

theorem Inquiry.Padded.congruence (good spare : CellAddress → Prop) (stable : Reading → Prop) :
    Relator.Congruence (fun R q q' => Padded good spare stable R q q') fun _ => True where
  done := .done
  fail _ := .fail _
  bind := .bind

/-- Each cell that the first inquiry asks for lies in what it noted before, and its results are
related to some others. -/
def Inquiry.AnnouncedFor {α β : Type} (R : α → β → Prop) (q : Inquiry α) (_ : Inquiry β) : Prop :=
  ∀ noted, q.Announced (fun a => ∃ b, R a b) noted

theorem Inquiry.AnnouncedFor.congruence : Relator.Congruence AnnouncedFor fun _ => True where
  done h _ := ⟨_, h⟩
  fail _ _ := trivial
  bind hq hf noted := (hq noted).bind fun a noted ⟨b, hab⟩ => hf a b hab noted

variable {ok : Area → Prop} {fails : Failure → Prop} {P : Relator} {site site' : Site}
  {registry : Registry}

/-- Readings of areas with the property are related at the sites, and all areas that come up have
it. -/
structure Site.Reads (ok : Area → Prop) (fails : Failure → Prop) (P : Relator)
    (site site' : Site) : Prop extends site.SamePlace site' where
  compose : P.Congruence fails
  keeps : site.Keeps ok
  area : ∀ area, ok area → P Eq (site.readArea area) (site'.readArea area)
  used : ∀ area, ok area → P Table.Alike (site.readUsed area) (site'.readUsed area)

/-- References written in an expression have the property on the sheets that the site finds. -/
def Site.Writes (site : Site) (ok : Area → Prop) : Formula.Expr → Prop
  | .cell sheet? coord => ∀ sheet ∈ site.sheet? sheet?, ok (.ofCell (coord.on sheet))
  | .area sheet? corners => ∀ sheet ∈ site.sheet? sheet?, ok (corners.on sheet)
  | _ => True

/-- References written in an expression have the property, and a call of a wrong number of
arguments is a failure of the kind. -/
structure Site.Admits (site : Site) (registry : Registry) (ok : Area → Prop)
    (fails : Failure → Prop) (node : Formula.Expr) : Prop where
  writes : site.Writes ok node
  count : ∀ failure, registry.callFailure? node = some failure → fails failure

/-- Any failure is of some kind. -/
theorem Site.admits_of_writes {e : Formula.Expr} (he : ∀ node ∈ e.nodes, site.Writes ok node) :
    ∀ node ∈ e.nodes, site.Admits registry ok (fun _ => True) node :=
  fun node hnode => ⟨he node hnode, fun _ _ => trivial⟩

/-- Functions of the registry that give up their calls fail in a way of the kind. -/
def Registry.GivesUp (registry : Registry) (fails : Failure → Prop) : Prop :=
  ∀ f ∈ registry.functions, f.implementation = .abort → fails .aborted

theorem Registry.givesUp_of_any (registry : Registry) : registry.GivesUp fun _ => True :=
  fun _ _ _ => trivial

/-- The same operand, its areas having the property. -/
def Operand.Same (ok : Area → Prop) (o o' : Operand) : Prop := o = o' ∧ o.All ok

/-- The same argument for a parameter of the kind, up to blanks if it takes used cells. -/
def Argument.Same (ok : Area → Prop) (kind : ParamKind) (arg arg' : Argument) : Prop :=
  arg.Alike arg' ∧ arg.All ok ∧ (kind ≠ .areas → arg = arg')

/-- The same prepared argument. -/
inductive Prepared.Same (ok : Area → Prop) (kind : ParamKind) : Prepared → Prepared → Prop where
  | error (e : ErrorValue) : Prepared.Same ok kind (.error e) (.error e)
  | ok {arg arg' : Argument} : arg.Same ok kind arg' → Prepared.Same ok kind (.ok arg) (.ok arg')

/-- The same arguments of a function. -/
structure Function.SameArguments (f : Function) (ok : Area → Prop)
    (args args' : List Argument) : Prop where
  alike : List.Forall₂ Argument.Alike args args'
  all : ∀ arg ∈ args, arg.All ok
  same : .areas ∉ f.params → args = args'

/-- The same prepared arguments of a function. -/
inductive Function.SamePrepared (f : Function) (ok : Area → Prop) :
    Except ErrorValue (List Argument) → Except ErrorValue (List Argument) → Prop where
  | error (e : ErrorValue) : SamePrepared f ok (.error e) (.error e)
  | ok {args args' : List Argument} : f.SameArguments ok args args' →
      SamePrepared f ok (.ok args) (.ok args')

theorem Function.SameArguments.cons {f : Function} {index : Nat} {arg arg' : Argument}
    {args args' : List Argument} (h : arg.Same ok (f.paramKind index) arg')
    (hs : f.SameArguments ok args args') : f.SameArguments ok (arg :: args) (arg' :: args') where
  alike := .cons h.1 hs.alike
  all := List.forall_mem_cons.mpr ⟨h.2.1, hs.all⟩
  same hmem := by
    have hkind : f.paramKind index ≠ .areas := fun hkind =>
      hmem (hkind ▸ mem_params_of_paramKind (by simp [hkind]))
    rw [h.2.2 hkind, hs.same hmem]

/-! ## Arguments -/

namespace Site.Reads

variable (h : Site.Reads ok fails P site site')
include h

theorem read {o : Operand} (ho : o.All ok) :
    P Eq (site.read o) (site'.read o) := by
  cases o with
  | value v => exact h.compose.done rfl
  | reference r =>
      obtain ⟨areas⟩ := r
      match areas with
      | [] => exact h.compose.done rfl
      | [area] => exact h.area area (ho area List.mem_cons_self)
      | _ :: _ :: _ => exact h.compose.done rfl

theorem readAllUsed {areas : List Area} (ho : ∀ area ∈ areas, ok area) :
    P (List.Forall₂ Table.Alike) (site.readAllUsed areas) (site'.readAllUsed areas) := by
  induction areas with
  | nil => exact h.compose.done .nil
  | cons area areas ih =>
      obtain ⟨harea, hareas⟩ := List.forall_mem_cons.mp ho
      refine h.compose.bind (h.used area harea) fun t t' ht => ?_
      exact h.compose.bind (ih hareas) fun ts ts' hts => h.compose.done (.cons ht hts)

theorem prepareScalar {α : Type} (convert : Scalar → Except ErrorValue α) (result : α → Value)
    {kind : ParamKind} {o : Operand} (ho : o.All ok) :
    P (Prepared.Same ok kind) (site.prepareScalar convert result o)
      (site'.prepareScalar convert result o) := by
  refine h.compose.bind (h.read ho) fun v v' hv => h.compose.done ?_
  cases hv
  cases convert v.toScalar with
  | error e => exact .error e
  | ok a => exact .ok ⟨.value _, trivial, fun _ => rfl⟩

theorem prepare (kind : ParamKind) {operand operand' : Unit → Inquiry Operand}
    (ho : P (Operand.Same ok) (operand ()) (operand' ())) :
    P (Prepared.Same ok kind) (site.prepare kind operand) (site'.prepare kind operand') := by
  cases kind with
  | any =>
      refine h.compose.bind ho fun o o' hoo => ?_
      obtain ⟨rfl, hall⟩ := hoo
      refine h.compose.bind (h.read hall) fun v v' hv => h.compose.done ?_
      cases hv
      exact .ok ⟨.value v, trivial, fun _ => rfl⟩
  | number | text | bool =>
      refine h.compose.bind ho fun o o' hoo => ?_
      obtain ⟨rfl, hall⟩ := hoo
      exact h.prepareScalar _ _ hall
  -- only tables of used cells are alike without being the same
  | areas =>
      refine h.compose.bind ho fun o o' hoo => ?_
      obtain ⟨rfl, hall⟩ := hoo
      cases o with
      | reference r =>
          refine h.compose.bind (h.readAllUsed hall) fun ts ts' hts => ?_
          refine h.compose.done (.ok ⟨.areas hts, trivial, ?_⟩)
          exact fun hkind => absurd rfl hkind
      | value v =>
          cases v with
          | scalar s => exact h.compose.done (.ok ⟨.value _, trivial, fun _ => rfl⟩)
          | table t =>
              exact h.compose.done (.ok ⟨.areas (.cons rfl .nil), trivial, fun _ => rfl⟩)
  | reference =>
      refine h.compose.bind ho fun o o' hoo => ?_
      obtain ⟨rfl, hall⟩ := hoo
      cases o with
      | reference r => exact h.compose.done (.ok ⟨.reference r, hall, fun _ => rfl⟩)
      | value v => exact h.compose.done (.ok ⟨.value v, trivial, fun _ => rfl⟩)
  | lazy => exact h.compose.done (.ok ⟨.lazy, trivial, fun _ => rfl⟩)

/-! ## Calls -/

theorem call {f : Function} (hf : f.Regular) (habort : f.implementation = .abort → fails .aborted)
    {args args' : List Argument}
    (hargs : f.SameArguments ok args args') {expression expression' : Nat → Inquiry Value}
    (hexpression : ∀ i, P Eq (expression i) (expression' i)) :
    P (Operand.Same ok) (f.call site args expression) (f.call site' args' expression') := by
  obtain ⟨halike, hall, hsame⟩ := hargs
  unfold Function.Regular at hf
  unfold Function.call
  split
  · rename_i g hg
    simp only [hg] at hf
    have heq : g args = g args' := by
      -- without a parameter for areas the arguments are the same, not only alike
      by_cases hmem : .areas ∈ f.params
      · exact hf hmem args args' halike
      · rw [hsame hmem]
    exact h.compose.done ⟨congrArg Operand.value heq, trivial⟩
  · rename_i g hg
    simp only [hg] at hf
    obtain ⟨hmem, hplace⟩ := hf
    obtain rfl := hsame hmem
    rw [hplace site site' args h.toSamePlace]
    cases g site' args with
    | value v => exact h.compose.done ⟨rfl, trivial⟩
    | force i resume =>
        have hforced : P Eq (Argument.forced (fun () => expression i) args[i]?)
            (Argument.forced (fun () => expression' i) args[i]?) := by
          unfold Argument.forced
          split
          · exact hexpression i
          · exact h.compose.done rfl
          · exact h.compose.done rfl
        refine h.compose.bind hforced fun v v' hv => h.compose.done ⟨?_, trivial⟩
        rw [hv]
  · rename_i g hg
    simp only [hg] at hf
    obtain ⟨hmem, hplace, hok⟩ := hf
    obtain rfl := hsame hmem
    exact h.compose.done ⟨hplace site site' args h.toSamePlace, hok site ok args h.keeps hall⟩
  · rename_i hg
    exact h.compose.fail (habort hg)

end Site.Reads

/-! ## Expressions -/

namespace Formula.Expr

set_option linter.unusedSectionVars false

theorem sheet?_same (h : site.SamePlace site') (name? : Option String) :
    site'.sheet? name? = site.sheet? name? := by
  cases name? with
  | none => exact congrArg (some ·.sheet) h.cell
  | some name => simp only [Site.sheet?, h.sheetName]

theorem named_same (h : site.SamePlace site') (word : String) :
    site'.named word = site.named word := by
  unfold Site.named
  rw [h.nameTarget, h.sheetName]

theorem between_ok (hsite : site.Keeps ok) {a b : Operand} (ha : a.All ok) (hb : b.All ok) :
    (a.between b).All ok := by
  obtain ⟨left, right, area, rfl, rfl, harea, heq⟩ | ⟨e, heq⟩ := a.between_cases b
  · rw [heq]
    exact List.forall_mem_singleton.mpr (hsite.bounding left right area
      (ha left List.mem_cons_self) (hb right List.mem_cons_self) harea)
  · rw [heq]
    trivial

variable (h : Site.Reads ok fails P site site') (hregistry : ∀ f ∈ registry.functions, f.Regular)
  (habort : registry.GivesUp fails)
include h hregistry habort

mutual

theorem related_operand (e : Expr) (he : ∀ node ∈ e.nodes, site.Admits registry ok fails node) :
    P (Operand.Same ok) (e.operand registry site)
      (e.operand registry site') := by
  match e with
  | .literal s => exact h.compose.done ⟨rfl, trivial⟩
  | .table t => exact h.compose.done ⟨rfl, trivial⟩
  | .cell sheet? coord =>
      unfold operand
      rw [sheet?_same h.toSamePlace]
      have hok := (he _ List.mem_cons_self).writes
      cases hs : site.sheet? sheet? with
      | none => exact h.compose.done ⟨rfl, trivial⟩
      | some sheet => exact h.compose.done ⟨rfl, List.forall_mem_singleton.mpr (hok sheet hs)⟩
  | .area sheet? corners =>
      unfold operand
      rw [sheet?_same h.toSamePlace]
      have hok := (he _ List.mem_cons_self).writes
      cases hs : site.sheet? sheet? with
      | none => exact h.compose.done ⟨rfl, trivial⟩
      | some sheet => exact h.compose.done ⟨rfl, List.forall_mem_singleton.mpr (hok sheet hs)⟩
  | .name word =>
      unfold operand
      rw [named_same h.toSamePlace]
      exact h.compose.done ⟨rfl, h.keeps.named word⟩
  | .unary op e =>
      simp only [nodes, List.forall_mem_cons] at he
      refine h.compose.bind (related_operand e he.2) fun o o' ho => ?_
      obtain ⟨rfl, hall⟩ := ho
      refine h.compose.bind (h.read hall) fun v v' hv => h.compose.done ⟨?_, trivial⟩
      rw [hv]
  -- the range operator joins areas, and the other operators read their operands first
  | .binary .range l r =>
      simp only [nodes, List.forall_mem_cons, List.forall_mem_append] at he
      refine h.compose.bind (related_operand l he.2.1) fun a a' ha => ?_
      refine h.compose.bind (related_operand r he.2.2) fun b b' hb => h.compose.done ?_
      obtain ⟨rfl, ha⟩ := ha
      obtain ⟨rfl, hb⟩ := hb
      exact ⟨rfl, between_ok h.keeps ha hb⟩
  | .binary (.comparison _) l r | .binary .concat l r | .binary (.arithmetic _) l r =>
      simp only [nodes, List.forall_mem_cons, List.forall_mem_append] at he
      refine h.compose.bind (related_operand l he.2.1) fun a a' ha => ?_
      obtain ⟨rfl, ha⟩ := ha
      refine h.compose.bind (h.read ha) fun v v' hv => ?_
      refine h.compose.bind (related_operand r he.2.2) fun b b' hb => ?_
      obtain ⟨rfl, hb⟩ := hb
      refine h.compose.bind (h.read hb) fun w w' hw => h.compose.done ⟨?_, trivial⟩
      rw [hv, hw]
  | .union items =>
      simp only [nodes, List.forall_mem_cons] at he
      exact related_areasOf items he.2 (by simp)
  | .call function es =>
      simp only [nodes, List.forall_mem_cons] at he
      unfold operand
      cases hf : registry.get? function with
      | none => exact h.compose.done ⟨rfl, trivial⟩
      | some f =>
          dsimp only
          cases hcount : f.checkCount es.length with
          | error failure =>
              -- the call fails before its arguments are looked at, as the formula was admitted to
              refine h.compose.fail (he.1.count failure ?_)
              simp only [Registry.callFailure?, hf, hcount]
          | ok _ =>
              refine h.compose.bind (related_argumentsOf f 0 es he.2) fun r r' hr => ?_
              cases hr with
              | error e => exact h.compose.done ⟨rfl, trivial⟩
              | ok hargs =>
                  have hmem := List.mem_of_find?_eq_some hf
                  exact h.call (hregistry f hmem) (habort f hmem) hargs
                    fun i => related_valueAt i es he.2

theorem related_areasOf (es : List Expr) (he : ∀ node ∈ nodesOf es, site.Admits registry ok fails node)
    {areas : List Area} (hareas : ∀ area ∈ areas, ok area) :
    P (Operand.Same ok) (areasOf registry site es areas)
      (areasOf registry site' es areas) := by
  match es with
  | [] => exact h.compose.done ⟨rfl, hareas⟩
  | e :: es =>
      simp only [nodesOf, List.forall_mem_append] at he
      refine h.compose.bind (related_operand e he.1) fun o o' ho => ?_
      obtain ⟨rfl, hall⟩ := ho
      match o with
      | .reference r =>
          exact related_areasOf es he.2 (List.forall_mem_append.mpr ⟨hareas, hall⟩)
      | .value (.scalar s) => cases s <;> exact h.compose.done ⟨rfl, trivial⟩
      | .value (.table t) => exact h.compose.done ⟨rfl, trivial⟩

theorem related_argumentsOf (f : Function) (index : Nat) (es : List Expr)
    (he : ∀ node ∈ nodesOf es, site.Admits registry ok fails node) :
    P (f.SamePrepared ok) (argumentsOf registry site f index es)
      (argumentsOf registry site' f index es) := by
  match es with
  | [] => exact h.compose.done (.ok ⟨.nil, by simp, fun _ => rfl⟩)
  | e :: es =>
      simp only [nodesOf, List.forall_mem_append] at he
      refine h.compose.bind
        (h.prepare (f.paramKind index) (related_operand e he.1)) fun p p' hp => ?_
      cases hp with
      | error e => exact h.compose.done (.error e)
      | ok harg =>
          refine h.compose.bind (related_argumentsOf f (index + 1) es he.2) fun r r' hr => ?_
          refine h.compose.done ?_
          cases hr with
          | error e => exact .error e
          | ok hargs => exact .ok (.cons harg hargs)

theorem related_valueAt (index : Nat) (es : List Expr)
    (he : ∀ node ∈ nodesOf es, site.Admits registry ok fails node) :
    P Eq (valueAt registry site index es)
      (valueAt registry site' index es) := by
  match index, es with
  | _, [] => exact h.compose.done rfl
  | 0, e :: es =>
      simp only [nodesOf, List.forall_mem_append] at he
      refine h.compose.bind (related_operand e he.1) fun o o' ho => ?_
      obtain ⟨rfl, hall⟩ := ho
      exact h.read hall
  | index + 1, e :: es =>
      simp only [nodesOf, List.forall_mem_append] at he
      exact related_valueAt index es he.2

end

/-- The inquiries for the value of an expression are related. -/
theorem related_value (e : Expr) (he : ∀ node ∈ e.nodes, site.Admits registry ok fails node) :
    P Eq (e.value registry site) (e.value registry site') := by
  refine h.compose.bind (related_operand h hregistry habort e he) fun o o' ho => ?_
  obtain ⟨rfl, hall⟩ := ho
  exact h.read hall

end Formula.Expr

end Spreadsheet
