-- SUMMARY: Functions that take the used cells of areas come to what all cells would give.
import Spreadsheet.Proofs.Failures
import Spreadsheet.Proofs.Machine
import Spreadsheet.Proofs.Nodes

/-!
# Used cells and all cells

A function that takes the cells of areas is given a table for each area, with the cells of its used
part. All other cells are blank, so a table with all cells of the area differs in blanks only, and
the function cannot tell them apart. Nor is anything remembered or recorded for a blank cell, so the
inquiry that asks for all cells has the same effect as well.
-/

namespace Spreadsheet

open Evaluation Inquiry

/-! ## Arguments by how areas are read -/

/-- All cells of an area as a table, row by row. -/
def Site.readWhole (area : Area) : Inquiry Table :=
  .note (.used area) (readBlock area (some area))

/-- The tables of areas, read one after the other. -/
def Site.readEach (read : Area → Inquiry Table) : List Area → Inquiry (List Table)
  | [] => .done []
  | area :: areas => (read area).bind fun t => (readEach read areas).bind fun ts => .done (t :: ts)

/-- The argument for a function that takes cells of areas. -/
def Operand.supply (read : Area → Inquiry Table) : Operand → Inquiry Argument
  | .reference r => (Site.readEach read r.areas).bind fun ts => .done (.areas ts)
  | .value (.table t) => .done (.areas [t])
  | .value v => .done (.value v)

namespace Formula.Expr

/-- The arguments for a function that takes cells of areas. -/
def supplied (registry : Registry) (site : Site) (read : Area → Inquiry Table) :
    List Expr → Inquiry (List Argument)
  | [] => .done []
  | e :: es =>
    (e.operand registry site).bind fun o => (o.supply read).bind fun arg =>
      (supplied registry site read es).bind fun args => .done (arg :: args)

/-- What a function makes of the cells of areas. -/
def aggregated (registry : Registry) (site : Site) (read : Area → Inquiry Table)
    (g : List Argument → Value) (es : List Expr) : Inquiry Operand :=
  (supplied registry site read es).bind fun args => .done (.value (g args))

end Formula.Expr

variable {site : Site} {area : Area} {registry : Registry} {f : Function}
  {read read' : Area → Inquiry Table}

theorem Site.readAllUsed_eq (site : Site) (areas : List Area) :
    site.readAllUsed areas = readEach site.readUsed areas := by
  induction areas with
  | nil => rfl
  | cons area areas ih => rw [readAllUsed, readEach, ih]

/-- A parameter for cells of areas supplies the used ones. -/
theorem Site.prepare_areas (site : Site) (operand : Unit → Inquiry Operand) :
    site.prepare .areas operand =
      (operand ()).bind fun o => (o.supply site.readUsed).bind fun arg => .done (.ok arg) := by
  change (operand ()).bind _ = _
  refine congrArg (operand ()).bind (funext fun o => ?_)
  cases o with
  | reference r => simp only [Operand.supply, readAllUsed_eq, Inquiry.bind_assoc, Inquiry.bind]
  | value v => cases v <;> rfl

theorem Formula.Expr.argumentsOf_areas (hf : ∀ index, f.paramKind index = .areas) (index : Nat)
    (es : List Expr) :
    argumentsOf registry site f index es =
      (supplied registry site site.readUsed es).bind fun args => .done (.ok args) := by
  induction es generalizing index with
  | nil => rfl
  | cons e es ih =>
      rw [argumentsOf, hf, Site.prepare_areas, supplied]
      simp only [Inquiry.bind_assoc, ih]
      rfl

/-! ## The built-in functions -/

theorem Function.paramKind_of_params {kind : ParamKind} (h : f.params = [kind]) (index : Nat) :
    f.paramKind index = kind := by
  unfold paramKind
  rw [h]
  cases index <;> rfl

/-- All parameters of a built-in function that takes cells of areas take them, and the function
sees nothing but its arguments. -/
theorem Registry.builtins_areas : ∀ f ∈ Registry.builtins.functions, .areas ∈ f.params →
    f.params = [.areas] ∧ ∃ g, f.implementation = .pure g := by
  have hall : ∀ f ∈ Registry.builtins.functions, .areas ∈ f.params →
      f.params = [.areas] ∧ !f.implementation.needsContext := by decide
  intro f hf hareas
  obtain ⟨hparams, hcontext⟩ := hall f hf hareas
  refine ⟨hparams, ?_⟩
  cases himpl : f.implementation with
  | pure g => exact ⟨g, rfl⟩
  | abort => exact (Registry.builtins_givesUp (fun _ => False) f hf himpl).elim
  | contextual g => simp [himpl, Implementation.needsContext] at hcontext
  | reference g => simp [himpl, Implementation.needsContext] at hcontext

/-! ## Unused cells -/

/-- The used part of an area has the cells of the area that lie in the used part of its sheet. -/
theorem Source.any_within?_iff (source : Source) {area : Area} {sheet : String}
    (hsheet : area.sheet = sheet) {c : CellAddress} :
    (area.within? (source.extent sheet).1 (source.extent sheet).2).any (·.contains c) ↔
      area.contains c ∧ source.Covers c := by
  rw [Area.any_within?_contains]
  refine and_congr_right fun hc => ?_
  unfold Source.Covers
  rw [(Area.contains_iff.mp hc).1, hsheet]

namespace Engine

variable {engine : Engine} {c : CellAddress}

/-- The cell lies on a sheet that exists, outside the used part. -/
def Unused (engine : Engine) (c : CellAddress) : Prop :=
  engine.inGrid.cells c ∧ ¬ engine.source.Covers c

theorem Unused.of_contains {area : Area} (ha : area.InGrid)
    (hsheet : ∃ stored, engine.source.sheetName? area.sheet = some stored) (hc : area.contains c)
    (hnot : ¬ engine.source.Covers c) : engine.Unused c := by
  rw [← (Area.contains_iff.mp hc).1] at hsheet
  exact ⟨⟨hsheet, ha.of_contains hc⟩, hnot⟩

theorem Unused.reads_blank (h : engine.Unused c) (hbook : engine.source.workbook.WellFormed) :
    engine.source.workbook.read c = .ok {} := by
  obtain ⟨content, hread⟩ := exists_read hbook h.1
  rw [hread, hbook.read_blank hread h.2]

/-- An unused cell is blank, and asking for it changes nothing. -/
theorem Unused.cellValue (h : engine.Unused c) (hbook : engine.source.workbook.WellFormed)
    {chain : List CellAddress} (hchain : ∀ x ∈ chain, engine.IsFormula x) (depth : Nat)
    (m : Memory) : (engine.cellValue depth chain c).on m = (.ok .blank, m) := by
  have hread := h.reads_blank hbook
  have hc : c ∉ chain := fun hmem => by
    obtain ⟨e, he⟩ := hchain c hmem
    simp [holding, hread] at he
  refine cellValue_on_value ?_
  rw [find, if_neg hc, hread]
  rfl

/-- With all cells of an area, only unused ones are asked for in addition to the used ones. -/
theorem padded_readWhole (hsource : site.source = engine.source) (ha : area.InGrid)
    (hsheet : ∃ stored, engine.source.sheetName? area.sheet = some stored) :
    Padded (fun _ => True) engine.Unused (fun _ => True) Table.Alike (site.readUsed area)
      (Site.readWhole area) := by
  have hproper := ha.toProper
  have hcontains : ∀ c ∈ area.cells, area.contains c := fun c => (Area.mem_cells_iff hproper).mp
  have hunused : ∀ c ∈ area.cells, ¬ (area.within? (engine.source.extent area.sheet).1
      (engine.source.extent area.sheet).2).any (·.contains c) → engine.Unused c := by
    intro c hc hused
    have hin := hcontains c hc
    exact .of_contains ha hsheet hin fun hcovers =>
      hused ((Source.any_within?_iff _ rfl).mpr ⟨hin, hcovers⟩)
  unfold Site.readUsed Site.readWhole
  dsimp only
  rw [hsource]
  refine .note ?_
  cases hwithin : area.within? (engine.source.extent area.sheet).1
      (engine.source.extent area.sheet).2 with
  | none =>
      refine Site.padded_readBlock_blank hproper (fun _ _ => trivial) fun c hc => hunused c hc ?_
      simp [hwithin]
  | some used =>
      obtain ⟨-, -, hused⟩ := Area.within?_eq_some hwithin
      refine Site.padded_readBlock_self (hproper.within? hwithin) hproper ?_
        (fun _ _ => trivial) fun c hc hnot => hunused c hc ?_
      · rw [hused]
        exact Area.cells_filter (hused ▸ hproper.within? hwithin) rfl rfl rfl
          (Nat.min_le_left _ _) (Nat.min_le_left _ _)
      · simpa [hwithin] using hnot

end Engine

/-! ## Padded arguments -/

section Padded

variable {good spare : CellAddress → Prop} {stable : Reading → Prop} {ok : Area → Prop}

theorem Site.padded_readEach
    (hread : ∀ area, ok area → Padded good spare stable Table.Alike (read area) (read' area))
    {areas : List Area} (hareas : ∀ area ∈ areas, ok area) :
    Padded good spare stable (List.Forall₂ Table.Alike) (readEach read areas)
      (readEach read' areas) := by
  induction areas with
  | nil => exact .done .nil
  | cons area areas ih =>
      obtain ⟨harea, hareas⟩ := List.forall_mem_cons.mp hareas
      refine (hread area harea).bind fun t t' ht => ?_
      exact (ih hareas).bind fun ts ts' hts => .done (.cons ht hts)

theorem Operand.padded_supply
    (hread : ∀ area, ok area → Padded good spare stable Table.Alike (read area) (read' area))
    {o : Operand} (ho : o.All ok) :
    Padded good spare stable Argument.Alike (o.supply read) (o.supply read') := by
  cases o with
  | reference r => exact (Site.padded_readEach hread ho).bind fun ts ts' hts => .done (.areas hts)
  | value v =>
      cases v with
      | scalar s => exact .done (.value _)
      | table t => exact .done (.areas (.cons rfl .nil))

namespace Formula.Expr

/-- Whatever stands next to an area in the arguments, they differ in the cells of areas alone. -/
theorem padded_supplied
    (hread : ∀ area, ok area → Padded good spare stable Table.Alike (read area) (read' area))
    {es : List Expr} (hes : ∀ e ∈ es, Padded good spare stable (Operand.Same ok)
      (e.operand registry site) (e.operand registry site)) :
    Padded good spare stable (List.Forall₂ Argument.Alike) (supplied registry site read es)
      (supplied registry site read' es) := by
  induction es with
  | nil => exact .done .nil
  | cons e es ih =>
      obtain ⟨he, hes⟩ := List.forall_mem_cons.mp hes
      refine he.bind fun o o' ho => ?_
      obtain ⟨rfl, hall⟩ := ho
      refine (Operand.padded_supply hread hall).bind fun arg arg' harg => ?_
      exact (ih hes).bind fun args args' hargs => .done (.cons harg hargs)

end Formula.Expr

end Padded

/-- Where asking for spare cells answers blanks and changes nothing, the inquiries come to the same
and have the same effect. -/
theorem Inquiry.Padded.run_on {α : Type} {good spare : CellAddress → Prop} {q q' : Inquiry α}
    {record : Reading → Evaluation Unit} {answer : CellAddress → Evaluation Value}
    (h : Padded good spare (fun _ => True) Eq q q')
    (hspare : ∀ c, spare c → ∀ m, (answer c).on m = (.ok .blank, m)) (m : Memory) :
    (q.run record answer).on m = (q'.run record answer).on m := by
  induction h generalizing m with
  | done hab => rw [hab]
  | fail failure => rfl
  | @note r q q' _ ih =>
      rw [run, run, on_bind, on_bind]
      split
      · exact ih _
      · rfl
  | unstable hr => exact absurd trivial hr
  | @ask c resume resume' _ _ ih =>
      rw [run, run, on_bind, on_bind]
      split
      · exact ih _ _
      · rfl
  | @spare c q resume' hc _ ih =>
      rw [ih m, run, on_bind_ok (hspare c hc m)]

/-! ## Calls in formulas -/

namespace Formula.Expr

variable {entered function : String} {e : Expr} {es : List Expr}

/-- A call of a built-in function that takes cells of areas asks for the used ones. -/
theorem operand_call_areas (site : Site) (he : Registry.builtins.readFormula entered = .ok e)
    (hcall : .call function es ∈ e.nodes) (hf : Registry.builtins.get? function = some f)
    (hareas : .areas ∈ f.params) :
    ∃ g, f.implementation = .pure g ∧ (call function es).operand .builtins site =
      aggregated .builtins site site.readUsed g es := by
  obtain ⟨hparams, g, hg⟩ := Registry.builtins_areas f (List.mem_of_find?_eq_some hf) hareas
  have hcount := (Registry.readFormula_eq_ok.mp he).2 _ hcall
  refine ⟨g, hg, ?_⟩
  simp only [Registry.callFailure?, hf] at hcount
  simp only [operand, hf]
  split at hcount
  · rename_i haccepts
    rw [haccepts, argumentsOf_areas (Function.paramKind_of_params hparams), Inquiry.bind_assoc]
    simp only [Inquiry.bind, Function.call, hg]
    rfl
  · cases hcount

variable {engine : Engine} {c : CellAddress} {depth : Nat}

/-- Together with all cells, only unused ones are asked for on top. -/
theorem padded_aggregated (hnames : engine.source.NamesInGrid)
    (hcell : ∃ stored, engine.source.sheetName? c.sheet = some stored)
    (he : Registry.builtins.readFormula entered = .ok e) (hcall : .call function es ∈ e.nodes)
    (hf : Registry.builtins.get? function = some f) (hareas : .areas ∈ f.params)
    {g : List Argument → Value} (hg : f.implementation = .pure g) :
    let site : Site := ⟨engine.source, c, depth⟩
    Padded (fun _ => True) engine.Unused (fun _ => True) Eq
      (aggregated .builtins site site.readUsed g es)
      (aggregated .builtins site Site.readWhole g es) := by
  intro site
  let known (sheet : String) : Prop := ∃ stored, engine.source.sheetName? sheet = some stored
  have hany {α : Type} (q : Inquiry α) :
      Padded (fun _ => True) engine.Unused (fun _ => True) Eq q q := .refl (Engine.asksOnly_true q)
  -- all but the tables of areas is read the same way at both sites, since they are one
  have hreads : Site.Reads (fun area => area.InGrid ∧ known area.sheet) (fun _ => True)
      (fun R q q' => Padded (fun _ => True) engine.Unused (fun _ => True) R q q') site site := {
    cell := rfl
    sheetName := rfl
    nameTarget := rfl
    compose := Padded.congruence _ _ _
    keeps := (Site.keeps_inGrid hnames).and (Site.keeps_sheet fun sheet h => ⟨sheet, h⟩)
    area := fun _ _ => hany _
    used := fun _ _ => (hany _).mono fun t t' ht => ht ▸ rfl }
  have hadmits : ∀ node ∈ e.nodes, site.Admits .builtins
      (fun area => area.InGrid ∧ known area.sheet) (fun _ => False) node :=
    admits_onSheets (Registry.written_of_readFormula he) (fun _ _ _ _ stored h => ⟨stored, h⟩) hcell
      (Registry.readFormula_eq_ok.mp he).2
  have hes : ∀ a ∈ es, Padded (fun _ => True) engine.Unused (fun _ => True)
      (Operand.Same fun area => area.InGrid ∧ known area.sheet)
      (a.operand .builtins site) (a.operand .builtins site) := by
    intro a ha
    refine related_operand hreads Registry.builtins_regular (Registry.givesUp_of_any _) a
      (Site.admits_of_writes fun node hnode => (hadmits node ?_).writes)
    exact nodes_subset hcall (List.mem_cons_of_mem _ (nodes_subset_nodesOf ha hnode))
  refine (padded_supplied (fun area harea => ?_) hes).bind fun args args' hargs => .done ?_
  · exact Engine.padded_readWhole rfl harea.1 harea.2
  · have hregular := Registry.builtins_regular f (List.mem_of_find?_eq_some hf)
    simp only [Function.Regular, hg] at hregular
    rw [hregular hareas args args' hargs]

end Formula.Expr

/-- **Aggregates may skip unused cells.** Take a call of a built-in function that takes cells of
areas, anywhere in a formula and with whatever arguments. It is the function applied to the used
cells of each area that an argument comes to, or to a blank if none is used. If all cells of these
areas were read instead, row by row, it would come to the same value or failure and leave the same
memory, from any memory, below any cells under computation, and however readings are recorded. -/
theorem Engine.used_cells_suffice {engine : Engine} {book : Workbook} (hbook : book.Built)
    (hsource : engine.source = { workbook := book }) {c : CellAddress}
    (hsheet : book.hasSheet c.sheet) {entered : String} {e : Formula.Expr}
    (he : Registry.builtins.readFormula entered = .ok e) {function : String}
    {es : List Formula.Expr} (hcall : .call function es ∈ e.nodes)
    (hf : Registry.builtins.get? function = some f) (hareas : .areas ∈ f.params) (depth : Nat) :
    let site : Site := ⟨engine.source, c, depth⟩
    ∃ g, f.implementation = .pure g ∧
      (Formula.Expr.call function es).operand .builtins site =
        Formula.Expr.aggregated .builtins site site.readUsed g es ∧
      ∀ (more : Nat) (chain : List CellAddress) (record : Reading → Evaluation Unit) (m : Memory),
        (∀ x ∈ chain, engine.IsFormula x) →
        ((Formula.Expr.aggregated .builtins site site.readUsed g es).run record
            (engine.cellValue more chain)).on m =
          ((Formula.Expr.aggregated .builtins site Site.readWhole g es).run record
            (engine.cellValue more chain)).on m := by
  intro site
  obtain ⟨g, hg, hoperand⟩ := Formula.Expr.operand_call_areas site he hcall hf hareas
  refine ⟨g, hg, hoperand, fun more chain record m hchain => ?_⟩
  have hwell : engine.source.workbook.WellFormed := hsource ▸ hbook.wellFormed
  have hnames : engine.source.NamesInGrid :=
    hsource ▸ Source.namesInGrid_of_wellFormed hbook.wellFormed
  have hcell : ∃ stored, engine.source.sheetName? c.sheet = some stored := by
    rw [hsource]
    obtain ⟨sheet, hsheet⟩ := Option.isSome_iff_exists.mp hsheet
    exact ⟨sheet.name, by simp [Source.sheetName?, Workbook.sheetName?, hsheet]⟩
  exact (Formula.Expr.padded_aggregated hnames hcell he hcall hf hareas hg).run_on
    (fun c hc m => hc.cellValue hwell hchain more m) m

set_option maxRecDepth 4000 in
/-- A column of three cells, of which one is used, next to a union with an area that is not used. -/
theorem Engine.used_cells_suffice_pair :
    let engine : Engine := .pair true "AND(A1:A3,(A1,C5))"
    let site : Site := ⟨engine.source, Workbook.pairFormula, 1⟩
    let coord (row col : Nat) : Coord := { row, col }
    let es : List Formula.Expr := [.area none ⟨coord 1 1, coord 3 1, .cells⟩,
      .union [.cell none (coord 1 1), .cell none (coord 5 3)]]
    ((Formula.Expr.aggregated .builtins site Site.readWhole Function.and es).run
      (fun _ => pure ()) (engine.cellValue 255 [Workbook.pairFormula])).on {} =
        (.ok (.value (.bool true)), {}) := by
  intro engine site coord es
  have he : Registry.builtins.readFormula "AND(A1:A3,(A1,C5))" = .ok (.call "AND" es) := by decide +kernel
  have hsource : engine.source = { workbook := .pair true "AND(A1:A3,(A1,C5))" } := rfl
  have hholding : engine.holding Workbook.pairFormula = .formula (.call "AND" es) := by
    have hread : engine.source.workbook.read Workbook.pairFormula =
        .ok { formula := some "AND(A1:A3,(A1,C5))" } := rfl
    unfold Engine.holding
    rw [hread]
    dsimp only
    rw [show engine.registry.readFormula _ = _ from he]
  have hf : Registry.builtins.get? "AND" =
      some ⟨"AND", 1, none, [.areas], .pure Function.and⟩ := rfl
  obtain ⟨g, hg, -, hrun⟩ := used_cells_suffice (Workbook.built_pair true _) hsource
    (c := Workbook.pairFormula) rfl he List.mem_cons_self hf (by decide) 1
  cases hg
  rw [← hrun 255 [Workbook.pairFormula] (fun _ => pure ()) {}
    (List.forall_mem_singleton.mpr ⟨_, hholding⟩)]
  with_unfolding_all rfl

end Spreadsheet
