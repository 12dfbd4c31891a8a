-- SUMMARY: What formulas of the built-in functions inquire, and what a write changes of it.
import Spreadsheet.Proofs.Circles
import Spreadsheet.Proofs.Nodes
import Spreadsheet.Proofs.Reading
import Spreadsheet.Proofs.Transfer

/-!
# Formulas of the built-in functions

The built-in functions cannot tell how many formulas are under computation, and give only
proper areas on sheets spelled as stored. So what a formula inquires is the same at every
place of a chain, lies in what it notes, and after a write of a cell elsewhere differs in
blanks only.
-/

namespace Spreadsheet

open Inquiry

/-! ## Areas that come up -/

/-- Names stand for proper areas. -/
def Source.NamesProper (source : Source) : Prop :=
  ∀ word area, source.nameTarget? word = some area → area.Proper

/-- Names stand for areas in the grid. -/
def Source.NamesInGrid (source : Source) : Prop :=
  ∀ word area, source.nameTarget? word = some area → area.InGrid

theorem Source.NamesInGrid.proper {source : Source} (h : source.NamesInGrid) :
    source.NamesProper :=
  fun word area harea => (h word area harea).toProper

theorem Source.namesInGrid_of_wellFormed {book : Workbook} (h : book.WellFormed) :
    Source.NamesInGrid { workbook := book } :=
  fun _ _ harea => h.nameTarget? harea

theorem Source.namesProper_of_wellFormed {book : Workbook} (h : book.WellFormed) :
    Source.NamesProper { workbook := book } :=
  (namesInGrid_of_wellFormed h).proper

namespace Site

variable {site : Site} {ok ok' : Area → Prop}

/-- The area is read from text in one of the styles, or is that of a name. -/
inductive Found (site : Site) (area : Area) : Prop where
  | text {cs : List Char} (h : Reference.readArea cs site.cell.sheet = .ok area)
  | counted {cs : List Char} (h : Reference.readCountedArea cs site.cell = .ok area)
  | name {word : String} (h : site.source.nameTarget? word = some area)

theorem Found.inGrid_or_name {area : Area} (h : site.Found area) :
    area.InGrid ∨ ∃ word, site.source.nameTarget? word = some area := by
  cases h with
  | text h => exact .inl (Reference.inGrid_of_readArea h)
  | counted h => exact .inl (Reference.inGrid_of_readCountedArea h)
  | name h => exact .inr ⟨_, h⟩

/-- The areas of `INDIRECT` and of names are found, and moved to a sheet that exists. -/
theorem all_indirect (hok : ∀ (area : Area) (name sheet : String), site.Found area →
      site.source.sheetName? name = some sheet → ok { area with sheet }) (args : List Argument) :
    (Function.indirect site args).All ok := by
  unfold Function.indirect
  dsimp only
  split
  · trivial
  · split
    · trivial
    · rename_i area harea
      have hfound : site.Found area := by
        split at harea
        · rename_i area' hread
          cases harea
          split at hread
          · exact .text hread
          · exact .counted hread
        · exact .name harea
      split
      · rename_i sheet hsheet
        exact List.forall_mem_singleton.mpr (hok area _ sheet hfound hsheet)
      · trivial

theorem all_named (hok : ∀ (area : Area) (name sheet : String), site.Found area →
      site.source.sheetName? name = some sheet → ok { area with sheet }) (word : String) :
    (site.named word).All ok := by
  unfold named
  split
  · trivial
  · rename_i area harea
    split
    · rename_i sheet hsheet
      exact List.forall_mem_singleton.mpr (hok area _ sheet (.name harea) hsheet)
    · trivial

theorem proper_move {area : Area} (h : area.Proper) (sheet : String) :
    Area.Proper { area with sheet } := by
  obtain ⟨htop, hrows, hleft, hcols⟩ := h
  exact ⟨htop, hrows, hleft, hcols⟩

theorem keeps_proper (hnames : site.source.NamesProper) : site.Keeps Area.Proper :=
  have hfound (area : Area) (name sheet : String) (h : site.Found area)
      (_ : site.source.sheetName? name = some sheet) : Area.Proper { area with sheet } :=
    proper_move
      (h.inGrid_or_name.elim (·.toProper) fun ⟨word, hword⟩ => hnames word area hword) sheet
  { bounding := fun _ _ _ ha hb h => ha.bounding hb h
    offset := fun _ _ _ _ _ _ _ h => (Area.offset_eq_ok h).1.toProper
    slice := fun _ _ _ part h _ => h.slice part
    indirect := all_indirect hfound
    named := all_named hfound }

theorem keeps_inGrid (hnames : site.source.NamesInGrid) : site.Keeps Area.InGrid :=
  have hfound (area : Area) (name sheet : String) (h : site.Found area)
      (_ : site.source.sheetName? name = some sheet) : Area.InGrid { area with sheet } :=
    (h.inGrid_or_name.elim id fun ⟨word, hword⟩ => hnames word area hword).move sheet
  { bounding := fun _ _ _ ha hb h => ha.bounding hb h
    offset := fun _ _ _ _ _ _ _ h => (Area.offset_eq_ok h).1
    slice := fun _ _ _ _ h hpart => h.slice (Area.partOf_slice hpart)
    indirect := all_indirect hfound
    named := all_named hfound }

/-- References keep the sheets they are on, or are moved to one spelled as stored. -/
theorem keeps_sheet {known : String → Prop} (hknown : ∀ sheet, site.source.Spells sheet → known sheet) :
    site.Keeps fun area => known area.sheet :=
  have hfound (area : Area) (name sheet : String) (_ : site.Found area)
      (hsheet : site.source.sheetName? name = some sheet) : known sheet :=
    hknown sheet (Source.spells_of_sheetName? hsheet)
  { bounding := by
      intro a b area ha _ h
      unfold Area.bounding at h
      split at h
      · cases h
        exact ha
      · cases h
    offset := fun _ _ _ _ _ _ ha h => (Area.offset_eq_ok h).2 ▸ ha
    slice := fun _ _ _ part ha _ => by cases part <;> exact ha
    indirect := all_indirect hfound
    named := all_named hfound }

theorem all_and {o : Operand} (h : o.All ok) (h' : o.All ok') : o.All fun a => ok a ∧ ok' a := by
  cases o with
  | value v => trivial
  | reference r => exact fun area harea => ⟨h area harea, h' area harea⟩

theorem Keeps.and (h : site.Keeps ok) (h' : site.Keeps ok') :
    site.Keeps fun area => ok area ∧ ok' area where
  bounding a b area ha hb harea :=
    ⟨h.bounding a b area ha.1 hb.1 harea, h'.bounding a b area ha.2 hb.2 harea⟩
  offset base dRow dCol height width area ha harea :=
    ⟨h.offset base dRow dCol height width area ha.1 harea,
      h'.offset base dRow dCol height width area ha.2 harea⟩
  slice area rowNum colNum? part ha hpart :=
    ⟨h.slice area rowNum colNum? part ha.1 hpart, h'.slice area rowNum colNum? part ha.2 hpart⟩
  indirect args := all_and (h.indirect args) (h'.indirect args)
  named word := all_and (h.named word) (h'.named word)

theorem Writes.and {node : Formula.Expr} (h : site.Writes ok node) (h' : site.Writes ok' node) :
    site.Writes (fun area => ok area ∧ ok' area) node := by
  cases node with
  | cell _ _ => exact fun sheet hsheet => ⟨h sheet hsheet, h' sheet hsheet⟩
  | area _ _ => exact fun sheet hsheet => ⟨h sheet hsheet, h' sheet hsheet⟩
  | _ => trivial

/-- The area is proper and its sheet spelled as the source spells it. -/
def Spelled (source : Source) (area : Area) : Prop := area.Proper ∧ source.Spells area.sheet

theorem keeps_spelled (hnames : site.source.NamesProper) : site.Keeps (Spelled site.source) :=
  (keeps_proper hnames).and (keeps_sheet fun _ h => h)

end Site

/-! ## References as written -/

namespace Formula.Expr

/-- The sheet named in front of a reference. -/
def sheetPrefix? : Expr → Option String
  | .cell sheet? _ | .area sheet? _ => sheet?
  | _ => none

/-- The sheets named in front of references are among the known ones, if they exist. -/
def NamesSheets (e : Expr) (source : Source) (known : String → Prop) : Prop :=
  ∀ node ∈ e.nodes, ∀ name ∈ node.sheetPrefix?, ∀ stored ∈ source.sheetName? name, known name

/-- The sheets named in front of references are spelled as the source spells them. -/
def SpelledFor (e : Expr) (source : Source) : Prop := e.NamesSheets source source.Spells

theorem writes_proper {e : Expr} (he : e.Proper) (site : Site) :
    ∀ node ∈ e.nodes, site.Writes Area.Proper node := by
  intro node hnode
  have hproper := he node hnode
  cases node with
  | cell sheet? coord => exact fun sheet _ => .ofCell hproper.1 hproper.2
  | area sheet? corners => exact fun sheet _ => Corners.Proper.on hproper sheet
  | _ => trivial

/-- References are on the sheets they name, or on that of the cell. -/
theorem writes_sheets {e : Expr} {site : Site} {known : String → Prop}
    (hnames : e.NamesSheets site.source known) (hcell : known site.cell.sheet) :
    ∀ node ∈ e.nodes, site.Writes (fun area => known area.sheet) node := by
  intro node hnode
  have hsheet {sheet? : Option String} (hnamed : ∀ name ∈ sheet?, name ∈ node.sheetPrefix?)
      {sheet : String} (h : sheet ∈ site.sheet? sheet?) : known sheet := by
    cases sheet? with
    | none =>
        cases h
        exact hcell
    | some name =>
        obtain ⟨stored, hstored, rfl⟩ := Option.map_eq_some_iff.mp h
        exact hnames node hnode _ (hnamed _ rfl) stored hstored
  cases node with
  | cell sheet? coord => exact fun sheet h => hsheet (fun _ h => h) h
  | area sheet? corners => exact fun sheet h => hsheet (fun _ h => h) h
  | _ => trivial

theorem writes_spelled {e : Expr} (he : e.Proper) {site : Site}
    (hspelled : e.SpelledFor site.source) (hcell : site.source.Spells site.cell.sheet) :
    ∀ node ∈ e.nodes, site.Writes (Site.Spelled site.source) node :=
  fun node hnode => (writes_proper he site node hnode).and (writes_sheets hspelled hcell node hnode)

/-! ## Inquiries -/

variable {registry : Registry} {site site' : Site} {e : Expr}
  (hregistry : ∀ f ∈ registry.functions, f.Regular)
include hregistry

/-- What an expression asks for lies in what it noted before. -/
theorem announced_value (hnames : site.source.NamesProper) (he : e.Proper)
    (noted : List Reading) : (e.value registry site).Announced (fun _ => True) noted := by
  have hreads : site.Reads Area.Proper (fun _ => True) AnnouncedFor site := {
    cell := rfl
    sheetName := rfl
    nameTarget := rfl
    compose := AnnouncedFor.congruence
    keeps := Site.keeps_proper hnames
    area := fun area ha noted =>
      (Site.announced_readArea ha noted).mono (fun v _ => ⟨v, rfl⟩) fun _ h => h
    used := fun area ha noted =>
      (Site.announced_readUsed ha noted).mono (fun t _ => ⟨t, rfl⟩) fun _ h => h }
  exact (related_value hreads hregistry registry.givesUp_of_any e
    (Site.admits_of_writes (writes_proper he site)) noted).mono
    (fun _ _ => trivial) fun _ h => h

/-- How many formulas are under computation makes no difference to an expression. -/
theorem value_of_depth {source : Source} {cell : CellAddress} {depth depth' : Nat} :
    e.value registry ⟨source, cell, depth⟩ = e.value registry ⟨source, cell, depth'⟩ := by
  have hreads : Site.Reads (fun _ => True) (fun _ => True)
      (fun R q q' => Padded (fun _ => True) (fun _ => False) (fun _ => True) R q q')
      ⟨source, cell, depth⟩ ⟨source, cell, depth'⟩ := {
    cell := rfl
    sheetName := rfl
    nameTarget := rfl
    compose := Padded.congruence _ _ _
    keeps :=
      { bounding := fun _ _ _ _ _ _ => trivial
        offset := fun _ _ _ _ _ _ _ _ => trivial
        slice := fun _ _ _ _ _ _ => trivial
        indirect := fun args => by
          cases Function.indirect ⟨source, cell, depth⟩ args with
          | value v => trivial
          | reference r => exact fun _ _ => trivial
        named := fun word => by
          cases Site.named ⟨source, cell, depth⟩ word with
          | value v => trivial
          | reference r => exact fun _ _ => trivial }
    area := fun area _ => .refl (Engine.asksOnly_true _)
    used := fun area _ => (Padded.refl (Engine.asksOnly_true _)).mono fun t t' h => h ▸ rfl }
  have hwrites : ∀ node ∈ e.nodes, Site.Writes ⟨source, cell, depth⟩ (fun _ => True) node := by
    intro node _
    cases node with
    | cell _ _ => exact fun _ _ => trivial
    | area _ _ => exact fun _ _ => trivial
    | _ => trivial
  exact (related_value hreads hregistry registry.givesUp_of_any e
    (Site.admits_of_writes hwrites)).eq

/-- After a write, an expression asks for what it asked before and for cells that came into use,
until it reads what is not stable. -/
theorem padded_value {ok : Area → Prop} {good : CellAddress → Prop} {stable : Reading → Prop}
    {a : CellAddress} (hplace : site.SamePlace site') (hextends : site.source.Extends site'.source)
    (hkeeps : site.Keeps ok) (hproper : ∀ area, ok area → area.Proper)
    (hgood : ∀ area, ok area → ∀ c : CellAddress, c.sheet = area.sheet → good c)
    (hstable : ∀ reading, ok reading.region → stable reading →
      site.source.Overlooks site'.source a reading)
    (he : ∀ node ∈ e.nodes, site.Writes ok node) :
    Padded good (site.source.Added site'.source a) stable Eq (e.value registry site)
      (e.value registry site') :=
  have hreads : site.Reads ok (fun _ => True)
      (fun R q q' => Padded good (site.source.Added site'.source a) stable R q q') site' := {
    toSamePlace := hplace
    compose := Padded.congruence _ _ _
    keeps := hkeeps
    area := fun area ha =>
      Site.padded_readArea hextends (hproper area ha) (hgood area ha) (hstable (.table area) ha)
    used := fun area ha =>
      Site.padded_readUsed hextends (hproper area ha) (hgood area ha) (hstable (.used area) ha) }
  related_value hreads hregistry registry.givesUp_of_any e (Site.admits_of_writes he)

end Formula.Expr

/-! ## Engines -/

namespace Engine

variable {engine : Engine} (hregistry : engine.registry = .builtins)
include hregistry

theorem regular : ∀ f ∈ engine.registry.functions, f.Regular := by
  rw [hregistry]
  exact Registry.builtins_regular

theorem uniform : engine.Uniform :=
  fun _ _ _ => Formula.Expr.value_of_depth (regular hregistry)

omit hregistry in
theorem readFormula_of_holding {cell : CellAddress} {e : Formula.Expr}
    (h : engine.holding cell = .formula e) :
    ∃ text, engine.registry.readFormula text = .ok e := by
  obtain ⟨-, text, -, -, hread⟩ := holding_eq_formula.mp h
  exact ⟨text, hread⟩

omit hregistry in
theorem proper_of_holding {cell : CellAddress} {e : Formula.Expr}
    (h : engine.holding cell = .formula e) : e.Proper :=
  have ⟨_, hread⟩ := readFormula_of_holding h
  Registry.proper_of_readFormula hread

/-- What a formula asks for lies in what it noted. -/
theorem Computes.announced (hnames : engine.source.NamesProper) {cell : CellAddress}
    {r : Except Failure Value} {readings : List Reading} {asked : List CellAddress}
    (h : engine.Computes cell r readings asked) {c : CellAddress} (hc : c ∈ asked) :
    ∃ reading ∈ readings, reading.region.contains c := by
  obtain ⟨e, n, he, -, rfl, rfl⟩ := h
  have hvalue : (engine.inquiry [] cell e).Announced (fun _ => True) [] :=
    Formula.Expr.announced_value (regular hregistry) hnames (proper_of_holding he) []
  obtain ⟨reading, hreading, hcontains⟩ := hvalue.of_mem_asked hc
  exact ⟨reading, hreading.resolve_left List.not_mem_nil, hcontains⟩

end Engine

/-! ## A workbook of two cells -/

namespace Engine

variable {engine : Engine} {b : Bool} {text : String} {e e' : Formula.Expr} {c : CellAddress}

theorem holding_pair (hbook : engine.source.workbook = .pair b text)
    (he : engine.registry.readFormula text = .ok e) (h : engine.holding c = .formula e') :
    c.row = 1 ∧ c.col = 2 ∧ e' = e := by
  obtain ⟨content, text', hread, htext, he'⟩ := holding_eq_formula.mp h
  rw [hbook] at hread
  obtain ⟨hrow, hcol, hformula⟩ := Workbook.read_pair hread (by simp [htext])
  obtain rfl := Option.some.inj (htext.symm.trans hformula)
  exact ⟨hrow, hcol, Except.ok.inj (he'.symm.trans he)⟩

/-- No circle is met if the formula reads an area to the left. -/
theorem circleFree_pair (hbook : engine.source.workbook = .pair b text)
    (he : engine.registry.readFormula text = .ok e) {area : CellAddress → Area}
    (hvalue : ∀ chain c, engine.inquiry chain c e =
      Site.readArea ⟨engine.source, c, chain.length + 1⟩ (area c))
    (harea : ∀ c, (area c).Proper ∧ (area c).right < 2) (cell : CellAddress) :
    engine.CircleFree cell := by
  refine circleFree_of_rank CellAddress.col (fun chain c e' h => ?_) cell
  obtain ⟨-, hcol, rfl⟩ := holding_pair hbook he h
  obtain ⟨hproper, hright⟩ := harea c
  rw [hvalue, hcol]
  exact (Site.asksOnly_readArea hproper).mono fun y hy =>
    Nat.lt_of_le_of_lt (Area.contains_iff.mp hy).2.2.2.2 hright

/-- The first cell and the first column. -/
def firstCell : Formula.Expr := .cell none { row := 1, col := 1 }

def firstColumn : Formula.Expr :=
  .area none ⟨{ row := 1, col := 1 }, { row := Grid.maxRows, col := 1 }, .columns⟩

set_option maxRecDepth 4000 in
theorem readFormula_firstCell : Registry.builtins.readFormula "A1" = .ok firstCell := by
  decide +kernel

set_option maxRecDepth 4000 in
theorem readFormula_firstColumn : Registry.builtins.readFormula "A:A" = .ok firstColumn := by
  decide +kernel

theorem inquiry_firstCell (chain : List CellAddress) (c : CellAddress) :
    engine.inquiry chain c firstCell =
      Site.readArea ⟨engine.source, c, chain.length + 1⟩ (.ofCell ⟨c.sheet, 1, 1⟩) := rfl

theorem inquiry_firstColumn (chain : List CellAddress) (c : CellAddress) :
    engine.inquiry chain c firstColumn =
      Site.readArea ⟨engine.source, c, chain.length + 1⟩ (.wholeColumns c.sheet 1 1) := rfl

theorem circleFree_firstCell (hregistry : engine.registry = .builtins)
    (hbook : engine.source.workbook = .pair b "A1") : ∀ cell, engine.CircleFree cell :=
  circleFree_pair hbook (hregistry ▸ readFormula_firstCell) inquiry_firstCell
    fun _ => ⟨.ofCell (Nat.le_refl 1) (Nat.le_refl 1), Nat.lt_succ_self 1⟩

theorem circleFree_firstColumn (hregistry : engine.registry = .builtins)
    (hbook : engine.source.workbook = .pair b "A:A") : ∀ cell, engine.CircleFree cell :=
  circleFree_pair hbook (hregistry ▸ readFormula_firstColumn) inquiry_firstColumn
    fun _ => ⟨.wholeColumns (Nat.le_refl 1) (Nat.le_refl 1), Nat.lt_succ_self 1⟩

end Engine

end Spreadsheet
