-- SUMMARY: Inquiries that ask for the same cells in other spellings come to the same.
import Spreadsheet.Proofs.Inquiry
import Spreadsheet.Proofs.Spelling

/-!
# Inquiries in step

Two inquiries are in step if they ask for the same cells one after the other, in whatever case the
sheets of these are spelled. If each pair of cells they come across has one value, they come to the
same. Reading areas that differ in the spelling of their sheets is in step, and so is preparing
arguments from them.
-/

namespace Spreadsheet

namespace Inquiry

variable {α β γ δ : Type} {source : Source} {answers : Answers} {R : α → β → Prop}
  {q : Inquiry α} {q' : Inquiry β}

/-- The inquiries ask for the same cells as long as the answers agree, and come to related results.
What they note may be anything. -/
inductive InStep (source : Source) (answers : Answers) (R : α → β → Prop) :
    Inquiry α → Inquiry β → Prop where
  | done {a : α} {b : β} : R a b → InStep source answers R (.done a) (.done b)
  | fail (failure : Failure) : InStep source answers R (.fail failure) (.fail failure)
  | note {r r' : Reading} {q : Inquiry α} {q' : Inquiry β} : InStep source answers R q q' →
      InStep source answers R (.note r q) (.note r' q')
  | ask {c c' : CellAddress} {resume : Value → Inquiry α} {resume' : Value → Inquiry β} :
      source.SameCell c c' →
      (∀ v, answers c = some (.ok v) → answers c' = some (.ok v) →
        InStep source answers R (resume v) (resume' v)) →
      InStep source answers R (.ask c resume) (.ask c' resume')

namespace InStep

theorem bind {S : γ → δ → Prop} {f : α → Inquiry γ} {f' : β → Inquiry δ}
    (h : InStep source answers R q q')
    (hf : ∀ a b, R a b → InStep source answers S (f a) (f' b)) :
    InStep source answers S (q.bind f) (q'.bind f') := by
  induction h with
  | done hab => exact hf _ _ hab
  | fail failure => exact .fail failure
  | note _ ih => exact .note ih
  | ask hc _ ih => exact .ask hc ih

/-- The results that are related are the ones the inquiries come to. -/
theorem reached (h : InStep source answers R q q') :
    InStep source answers
      (fun a b => R a b ∧ q.evaluate answers = some (.ok a) ∧ q'.evaluate answers = some (.ok b))
      q q' := by
  induction h with
  | done hab => exact .done ⟨hab, rfl, rfl⟩
  | fail failure => exact .fail failure
  | note _ ih => exact .note ih
  | ask hc _ ih =>
      refine .ask hc fun v hv hv' => ?_
      simp only [evaluate_ask, hv, hv']
      exact ih v hv hv'

/-- If the cells that both ask for have the same answers, the second inquiry comes to what the
first one does. -/
theorem evaluate {q q' : Inquiry α} (h : InStep source answers Eq q q')
    (hsame : ∀ c ∈ q.asked answers, ∀ c' ∈ q'.asked answers, source.SameCell c c' →
      ∀ a, answers c = some a → answers c' = some a)
    {r : Except Failure α} (hr : q.evaluate answers = some r) :
    q'.evaluate answers = some r := by
  induction h with
  | done hab => exact hab ▸ hr
  | fail failure => exact hr
  | note _ ih => exact ih hsame hr
  | @ask c c' resume resume' hc _ ih =>
      obtain ⟨a, ha⟩ := exists_answer hr (mem_asked_ask c resume)
      have ha' := hsame c (mem_asked_ask c resume) c' (mem_asked_ask c' resume') hc a ha
      rw [evaluate_ask, ha] at hr
      rw [evaluate_ask, ha']
      cases a with
      | error failure => exact hr
      | ok v =>
          refine ih v ha ha' (fun d hd d' hd' => hsame d ?_ d' ?_) hr
          · simp only [asked, ha]
            exact List.mem_cons_of_mem c hd
          · simp only [asked, ha']
            exact List.mem_cons_of_mem c' hd'

end InStep

end Inquiry

/-! ## Reading -/

namespace Site

open Inquiry

variable {source : Source} {answers : Answers} {site site' : Site}

theorem inStep_readCells {block : Area} {sheet : String} {used : Option Area}
    (hsheet : source.SameSheet block.sheet sheet) (hused : ∀ area ∈ used, area.sheet = block.sheet)
    (count : Nat) (read : Array Scalar) :
    InStep source answers Eq (readCells block used count read)
      (readCells (block.renamed sheet) (used.map (·.renamed sheet)) count read) := by
  induction count generalizing read with
  | zero => exact .done rfl
  | succ count ih =>
      have hany (i : Nat) :
          (used.map (·.renamed sheet)).any (·.contains ((block.cellAt i).renamed sheet)) =
            used.any (·.contains (block.cellAt i)) := by
        cases used with
        | none => rfl
        | some area => exact area.contains_renamed sheet (hused area rfl).symm
      unfold readCells
      dsimp only
      rw [Area.cellAt_renamed, Area.size_renamed, hany]
      split
      · exact .ask ⟨hsheet, rfl, rfl⟩ fun v _ _ => ih (read.push v.toScalar)
      · exact ih (read.push .blank)

theorem inStep_readBlock {block : Area} {sheet : String} {used : Option Area}
    (hsheet : source.SameSheet block.sheet sheet)
    (hused : ∀ area ∈ used, area.sheet = block.sheet) :
    InStep source answers Eq (readBlock block used)
      (readBlock (block.renamed sheet) (used.map (·.renamed sheet))) := by
  refine (inStep_readCells hsheet hused block.size _).bind fun cells cells' hcells => ?_
  cases hcells
  exact .done rfl

variable (hsource : site'.source = site.source)
include hsource

theorem inStep_readUsed {area area' : Area} (h : site.source.SameArea area area') :
    InStep site.source answers Eq (site.readUsed area) (site'.readUsed area') := by
  obtain ⟨sheet, hsheet, rfl⟩ := h
  unfold readUsed
  rw [hsource, Area.sheet_renamed, hsheet.extent]
  dsimp only
  rw [Area.within?_renamed]
  cases hused : area.within? (site.source.extent area.sheet).1
      (site.source.extent area.sheet).2 with
  | none => exact .note (.done rfl)
  | some used =>
      have hkept := Area.sheet_of_within? hused
      exact .note (inStep_readBlock (hkept ▸ hsheet) fun _ h => Option.mem_some.mp h ▸ rfl)

theorem inStep_readArea {area area' : Area} (h : site.source.SameArea area area') :
    InStep site.source answers Eq (site.readArea area) (site'.readArea area') := by
  obtain ⟨sheet, hsheet, rfl⟩ := h
  unfold readArea
  rw [hsource, Area.isSingleCell_renamed]
  split
  · refine .note (.ask ⟨hsheet, rfl, rfl⟩ fun v _ _ => .done rfl)
  · rw [Area.sheet_renamed, hsheet.extent]
    dsimp only
    rw [Area.clip_renamed, Area.size_renamed, Area.within?_renamed]
    refine .note ?_
    split
    · exact .done rfl
    · have hkept : (area.clip (site.source.extent area.sheet).1
          (site.source.extent area.sheet).2).sheet = area.sheet := Area.clip_sheet
      refine (inStep_readBlock (hkept.symm ▸ hsheet) fun _ h => ?_).bind fun t t' ht => ?_
      · exact Area.sheet_of_within? h
      · cases ht
        exact .done rfl

theorem inStep_read {o o' : Operand} (h : o.Respelled site.source o') :
    InStep site.source answers Eq (site.read o) (site'.read o') := by
  cases h with
  | value v => exact .done rfl
  | reference hareas =>
      cases hareas with
      | nil => exact .done rfl
      | cons harea hrest =>
          cases hrest with
          | nil => exact inStep_readArea hsource harea
          | cons _ _ => exact .done rfl

theorem inStep_readAllUsed {areas areas' : List Area}
    (h : List.Forall₂ site.source.SameArea areas areas') :
    InStep site.source answers Eq (site.readAllUsed areas) (site'.readAllUsed areas') := by
  induction h with
  | nil => exact .done rfl
  | cons harea _ ih =>
      refine (inStep_readUsed hsource harea).bind fun t t' ht => ih.bind fun ts ts' hts => ?_
      rw [ht, hts]
      exact .done rfl

end Site

/-! ## Arguments -/

/-- The same prepared argument, the spelling of a reference aside. Only a parameter for references
is given one. -/
inductive Prepared.Respelled (source : Source) (kind : ParamKind) : Prepared → Prepared → Prop where
  | error (e : ErrorValue) : Respelled source kind (.error e) (.error e)
  | ok {arg arg' : Argument} : arg.Respelled source arg' → (kind ≠ .reference → arg = arg') →
      Respelled source kind (.ok arg) (.ok arg')

namespace Function

/-- The same arguments of a function, the spelling of references aside. -/
structure RespelledArguments (f : Function) (source : Source) (args args' : List Argument) :
    Prop where
  respelled : List.Forall₂ (Argument.Respelled source) args args'
  same : .reference ∉ f.params → args = args'

/-- The same prepared arguments of a function, the spelling of references aside. -/
inductive RespelledPrepared (f : Function) (source : Source) :
    Except ErrorValue (List Argument) → Except ErrorValue (List Argument) → Prop where
  | error (e : ErrorValue) : RespelledPrepared f source (.error e) (.error e)
  | ok {args args' : List Argument} : f.RespelledArguments source args args' →
      RespelledPrepared f source (.ok args) (.ok args')

theorem RespelledArguments.cons {f : Function} {source : Source} {index : Nat}
    {arg arg' : Argument} {args args' : List Argument} (harg : arg.Respelled source arg')
    (hsame : f.paramKind index ≠ .reference → arg = arg')
    (h : f.RespelledArguments source args args') :
    f.RespelledArguments source (arg :: args) (arg' :: args') where
  respelled := .cons harg h.respelled
  same hmem := by
    have hkind : f.paramKind index ≠ .reference := fun hkind =>
      hmem (hkind ▸ mem_params_of_paramKind (by simp [hkind]))
    rw [hsame hkind, h.same hmem]

end Function

namespace Site

open Inquiry

variable {answers : Answers} {site site' : Site} {kind : ParamKind}

section

variable (hsource : site'.source = site.source)
include hsource

theorem inStep_prepareScalar {α : Type} (convert : Scalar → Except ErrorValue α)
    (result : α → Value) {o o' : Operand} (h : o.Respelled site.source o') :
    InStep site.source answers (Prepared.Respelled site.source kind)
      (site.prepareScalar convert result o) (site'.prepareScalar convert result o') := by
  refine (inStep_read hsource h).bind fun v v' hv => .done ?_
  cases hv
  cases convert v.toScalar with
  | error e => exact .error e
  | ok a => exact .ok (.value _) fun _ => rfl

theorem inStep_prepare (kind : ParamKind) {operand operand' : Unit → Inquiry Operand}
    (h : InStep site.source answers (Operand.Respelled site.source) (operand ()) (operand' ())) :
    InStep site.source answers (Prepared.Respelled site.source kind)
      (site.prepare kind operand) (site'.prepare kind operand') := by
  cases kind with
  | any =>
      refine h.bind fun o o' ho => (inStep_read hsource ho).bind fun v v' hv => ?_
      cases hv
      exact .done (.ok (.value v) fun _ => rfl)
  | number | text | bool => exact h.bind fun o o' ho => inStep_prepareScalar hsource _ _ ho
  | areas =>
      refine h.bind fun o o' ho => ?_
      cases ho with
      | reference hareas =>
          refine (inStep_readAllUsed hsource hareas).bind fun ts ts' hts => ?_
          cases hts
          exact .done (.ok (.areas ts) fun _ => rfl)
      | value v =>
          cases v with
          | scalar s => exact .done (.ok (.value _) fun _ => rfl)
          | table t => exact .done (.ok (.areas [t]) fun _ => rfl)
  | reference =>
      refine h.bind fun o o' ho => ?_
      cases ho with
      | reference hareas => exact .done (.ok (.reference hareas) fun hkind => absurd rfl hkind)
      | value v => exact .done (.ok (.value v) fun _ => rfl)
  | lazy => exact .done (.ok .lazy fun _ => rfl)

end

/-! ## Calls -/

theorem inStep_call (hsite : site.Near site') {f : Function} (hf : f.Blind)
    {args args' : List Argument} (hargs : f.RespelledArguments site.source args args')
    {expression expression' : Nat → Inquiry Value}
    (h : ∀ i, InStep site.source answers Eq (expression i) (expression' i)) :
    InStep site.source answers (Operand.Respelled site.source)
      (f.call site args expression) (f.call site' args' expression') := by
  obtain ⟨hrespelled, hsame⟩ := hargs
  unfold Function.Blind at hf
  unfold Function.call
  split
  · rename_i g hg
    simp only [hg] at hf
    have heq : g args = g args' := by
      -- without a parameter for references the arguments are the same, not only alike
      by_cases hmem : .reference ∈ f.params
      · exact hf hmem _ args args' hrespelled
      · rw [hsame hmem]
    rw [heq]
    exact .done (.value _)
  · rename_i g hg
    simp only [hg] at hf
    rw [hf site site' args args' hsite hrespelled hsame]
    cases g site' args' with
    | value v => exact .done (.value v)
    | force i resume =>
        have hforced : InStep site.source answers Eq
            (Argument.forced (fun () => expression i) args[i]?)
            (Argument.forced (fun () => expression' i) args'[i]?) := by
          have harg := rel_getElem? hrespelled i
          generalize args[i]? = arg?, args'[i]? = arg?' at harg ⊢
          cases harg with
          | none => exact .done rfl
          | some harg =>
              cases harg with
              | lazy => exact h i
              | value v => exact .done rfl
              | areas | reference => exact .done rfl
        refine hforced.bind fun v v' hv => ?_
        cases hv
        exact .done (.value _)
  · rename_i g hg
    simp only [hg] at hf
    exact .done (hf site site' args args' hsite hrespelled hsame)
  · exact .fail .aborted

end Site

end Spreadsheet
