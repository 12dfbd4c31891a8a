-- SUMMARY: How the sheets are spelled that a memory keeps values and dependencies by.
import Spreadsheet.Proofs.Computations
import Spreadsheet.Proofs.Queries

/-!
# Keys of the memory

Callers, defined names, `INDIRECT` and the functions that make references bring in sheets as
they are stored. Only a sheet named in front of a reference stays spelled as in the formula.
So a memory keeps nothing by other spellings than those, and where formulas name sheets as
they are stored, each cell is kept by one address.
-/

namespace Spreadsheet

open Std

/-! ## Keys -/

namespace Dependencies

variable {deps : Dependencies} {p : Precedent} {x : CellAddress} {area : Area}

/-- The addresses that dependencies are kept by: what is read, its readers, and both again from
the other side. -/
inductive Key (deps : Dependencies) : Area → Prop where
  | cell {c : CellAddress} : c ∈ deps.byCell → deps.Key (.ofCell c)
  | area {area : Area} : area ∈ deps.byArea → deps.Key area
  | reader {x : CellAddress} : x ∈ deps.reads → deps.Key (.ofCell x)
  | dependent {p : Precedent} {x : CellAddress} : deps.ReadBy p x → deps.Key (.ofCell x)
  | precedent {p : Precedent} {x : CellAddress} : p ∈ deps.precedents x → deps.Key p.region

section Sets

variable {α β : Type} [Ord α] [TransOrd α] [LawfulEqOrd α] [Ord β] {sets : TreeMap α (TreeSet β)}
  {key key' : α} {member : β}

theorem mem_keys_link : key' ∈ link sets key member ↔ key = key' ∨ key' ∈ sets := by
  simp only [link, TreeMap.mem_alter, LawfulEqCmp.compare_eq_iff_eq]
  by_cases hk : key = key' <;> simp [hk]

theorem mem_of_mem_unlink (h : key' ∈ unlink sets key member) : key' ∈ sets := by
  simp only [unlink, TreeMap.mem_alter] at h
  split at h
  · rename_i hk
    rw [← LawfulEqCmp.compare_eq_iff_eq.mp hk, TreeMap.mem_iff_isSome_getElem?]
    exact Option.isSome_of_isSome_bind h
  · exact h

end Sets

theorem not_key_empty : ¬ ({} : Dependencies).Key area := by
  rintro (hc | harea | hx | hread | hp)
  · simp at hc
  · simp at harea
  · simp at hx
  · rename_i p x
    exact not_mem_precedents_empty ((mirrored_empty p x).mp hread)
  · exact not_mem_precedents_empty hp

/-- Recording adds the reader and what it read. -/
theorem Key.of_record (h : (deps.record p x).Key area) :
    deps.Key area ∨ area = .ofCell x ∨ area = p.region := by
  cases h with
  | @cell c hc =>
      cases p with
      | cell d =>
          obtain rfl | hc := mem_keys_link.mp hc
          · exact .inr (.inr rfl)
          · exact .inl (.cell hc)
      | area a => exact .inl (.cell hc)
  | area harea =>
      cases p with
      | cell d => exact .inl (.area harea)
      | area a =>
          obtain rfl | harea := mem_keys_link.mp harea
          · exact .inr (.inr rfl)
          · exact .inl (.area harea)
  | reader hx =>
      have hx := hx
      cases p <;>
      · obtain rfl | hx := mem_keys_link.mp hx
        · exact .inr (.inl rfl)
        · exact .inl (.reader hx)
  | dependent hread =>
      obtain ⟨rfl, -⟩ | hread := readBy_record.mp hread
      · exact .inr (.inl rfl)
      · exact .inl (.dependent hread)
  | precedent hp =>
      obtain ⟨-, rfl⟩ | hp := mem_precedents_record.mp hp
      · exact .inr (.inr rfl)
      · exact .inl (.precedent hp)

theorem Key.of_detach (h : (detach x deps p).Key area) : deps.Key area := by
  cases h with
  | cell hc =>
      cases p with
      | cell d => exact .cell (mem_of_mem_unlink hc)
      | area a => exact .cell hc
  | area harea =>
      cases p with
      | cell d => exact .area harea
      | area a => exact .area (mem_of_mem_unlink harea)
  | reader hx => exact .reader (reads_detach ▸ hx)
  | dependent hread => exact .dependent (readBy_detach.mp hread).1
  | precedent hp =>
      rw [mem_precedents, reads_detach, ← mem_precedents] at hp
      exact .precedent hp

/-- Forgetting adds nothing. -/
theorem Key.of_forget (h : (deps.forget x).Key area) : deps.Key area := by
  unfold forget at h
  split at h
  · exact h
  · rename_i ps _
    generalize ps.toList = ps at h
    have herase : ({ deps with reads := deps.reads.erase x } : Dependencies).Key area →
        deps.Key area := by
      intro h
      cases h with
      | cell hc => exact .cell hc
      | area harea => exact .area harea
      | reader hx => exact .reader (TreeMap.mem_of_mem_erase hx)
      | dependent hread => exact .dependent hread
      | @precedent p y hp =>
          refine .precedent (x := y) ?_
          rw [mem_precedents] at hp ⊢
          simp only [TreeMap.getD_eq_getD_getElem?, TreeMap.getElem?_erase,
            LawfulEqCmp.compare_eq_iff_eq] at hp ⊢
          split at hp
          · simp at hp
          · exact hp
    refine herase ?_
    generalize ({ deps with reads := deps.reads.erase x } : Dependencies) = deps' at h
    induction ps generalizing deps' with
    | nil => exact h
    | cons p ps ih => exact (ih _ h).of_detach

end Dependencies

namespace Memory

variable {m : Memory} {known : String → Prop} {cell : CellAddress}

/-- The addresses that a memory keeps something by. -/
inductive Key (m : Memory) : Area → Prop where
  | value {c : CellAddress} : c ∈ m.values → m.Key (.ofCell c)
  | dependency {area : Area} : m.dependencies.Key area → m.Key area

theorem Remembers.key {c : CellAddress} (h : m.Remembers c) : m.Key (.ofCell c) := by
  obtain ⟨v, hv⟩ := h
  exact .value (TreeMap.mem_iff_isSome_getElem?.mpr (hv ▸ rfl))

/-- The sheets of all keys are known ones. -/
def Keyed (m : Memory) (known : String → Prop) : Prop := ∀ key, m.Key key → known key.sheet

theorem keyed_empty {formulas : TreeMap String Formula.Expr} :
    Keyed { formulas } known := by
  rintro key (hc | hkey)
  · simp at hc
  · exact (Dependencies.not_key_empty hkey).elim

/-- Formulas that have been read are no keys. -/
theorem Keyed.read (hm : m.Keyed known) {formulas : TreeMap String Formula.Expr} :
    Keyed { m with formulas } known := by
  rintro key (hc | hkey)
  · exact hm _ (.value hc)
  · exact hm key (.dependency hkey)

theorem Keyed.noted (hm : m.Keyed known) {reader : Option CellAddress} {r : Reading}
    (hreader : ∀ x ∈ reader, known x.sheet) (hr : known r.region.sheet) :
    (m.noted reader r).Keyed known := by
  cases reader with
  | none => exact hm
  | some x =>
      rintro key (hc | hkey)
      · exact hm _ (.value hc)
      · obtain hkey | rfl | rfl := hkey.of_record
        · exact hm key (.dependency hkey)
        · exact hreader x rfl
        · exact hr

theorem Keyed.forget (hm : m.Keyed known) (x : CellAddress) : (m.forget x).Keyed known := by
  rintro key (hc | hkey)
  · exact hm _ (.value hc)
  · exact hm key (.dependency hkey.of_forget)

theorem Keyed.keep (hm : m.Keyed known) (hcell : known cell.sheet) (remember : Bool) (v : Value) :
    (m.keep remember cell v).Keyed known := by
  unfold Memory.keep
  split
  · rintro key (hc | hkey)
    · obtain hc | hc := TreeMap.mem_insert.mp hc
      · exact LawfulEqCmp.compare_eq_iff_eq.mp hc ▸ hcell
      · exact hm _ (.value hc)
    · exact hm key (.dependency hkey)
  · exact hm

theorem Keyed.invalidate (hm : m.Keyed known) (a : CellAddress) :
    (m.invalidate a).Keyed known := by
  rintro key (hc | hkey)
  · rename_i c
    refine hm _ (.value ?_)
    rw [TreeMap.mem_iff_isSome_getElem?] at hc ⊢
    simp only [Memory.invalidate, getElem?_foldl_erase, TreeMap.getElem?_erase] at hc
    split at hc
    · cases hc
    · split at hc
      · cases hc
      · exact hc
  · exact hm key (.dependency hkey.of_forget)

end Memory

/-! ## Runs -/

/-- The task is about cells of the sheets. -/
def Task.OnSheets (known : String → Prop) : Task → Prop
  | .cell _ _ c => known c.sheet
  | .inquiry _ _ reader q =>
    (∀ x ∈ reader, known x.sheet) ∧ q.Meets (.ofSheets known) fun _ => True

/-- Where formulas on the sheets ask for these only, so does every run, and the memory keeps nothing
by others. -/
theorem Runs.keyed {engine : Engine} {known : String → Prop}
    (hformula : ∀ chain c e, known c.sheet → engine.holding c = .formula e →
      (engine.inquiry chain c e).Meets (.ofSheets known) fun _ => True)
    {task : Task} {m m' : Memory} {s : Except Failure Value} {log : Log}
    (h : Runs engine task m s m' log) (hm : m.Keyed known) (htask : task.OnSheets known) :
    m'.Keyed known := by
  induction h with
  | circle _ => exact hm
  | settled _ _ => exact hm
  | remembered _ _ => exact hm
  | tooDeep _ _ _ => exact hm.read
  | @computed _ chain cell _ _ e _ v _ _ he _ _ ih =>
      have hcell : known cell.sheet := htask
      refine Memory.Keyed.keep (ih (hm.read.forget cell) ⟨?_, hformula chain cell e hcell he⟩) hcell _ v
      rintro x ⟨⟩
      exact hcell
  | @failed _ chain cell _ _ e _ _ _ _ he _ _ ih =>
      have hcell : known cell.sheet := htask
      refine ih (hm.read.forget cell) ⟨?_, hformula chain cell e hcell he⟩
      rintro x ⟨⟩
      exact hcell
  | done => exact hm
  | fail => exact hm
  | note _ ih => exact ih (hm.noted htask.1 htask.2.1) ⟨htask.1, htask.2.2⟩
  | asked _ _ ih₁ ih => exact ih (ih₁ hm htask.2.1) ⟨htask.1, htask.2.2 _ trivial⟩
  | askFailed _ ih => exact ih hm htask.2.1

namespace Evaluator

open Engine Workbook

variable {ev ev' : Evaluator} {op : Operation} {ops : List Operation} {events : List Event}
  {known : String → Prop}

/-- In front of a reference, a formula names a sheet so: one that a workbook on the way stores, or
one that is asked for. -/
inductive Names (ev : Evaluator) (ops : List Operation) (name : String) : Prop where
  | stored {before : List Operation} {c : CellAddress} {e node : Formula.Expr} :
      before <+: ops → (ev.after before).holding c = .formula e → node ∈ e.nodes →
      node.sheetPrefix? = some name → Names ev ops name
  | asked {entered : String} {cell : CellAddress} {e node : Formula.Expr} :
      .ask (.formula entered cell) ∈ ops → ev.registry.readFormula entered = .ok e →
      node ∈ e.nodes → node.sheetPrefix? = some name → Names ev ops name

/-- The sheets of all that the evaluator keeps are known ones, and so are those of the workbook. -/
structure Keeps (ev : Evaluator) (known : String → Prop) : Prop where
  formulas : ev.FormulasRead ev.memory
  registry : ev.registry = .builtins
  names : ev.source.NamesInGrid
  spelled : ∀ sheet, ev.source.Spells sheet → known sheet
  keyed : ev.memory.Keyed known

theorem Keeps.step (hev : ev.Keeps known)
    (hstored : ∀ c e, ev.holding c = .formula e → e.NamesSheets ev.source known)
    (hasked : ∀ query, op = .ask query → query.NamesSheets ev.toEngine known)
    (h : ev.Step op events ev') (hread : ev'.FormulasRead ev'.memory) : ev'.Keeps known := by
  cases h with
  | idle => exact { hev with formulas := hread, keyed := hev.keyed.read }
  | answered hq hruns =>
      refine { hev with formulas := hread, keyed := hruns.keyed ?_ hev.keyed.read ⟨nofun, ?_⟩ }
      · intro chain c e hc he
        obtain ⟨text, htext⟩ := readFormula_of_holding he
        exact Engine.meets_ofSheets hev.registry hev.names hev.spelled hc htext (hstored c e he)
      · exact Query.meets_ofSheets hev.registry hev.names hev.spelled (hasked _ rfl) hq
  | written _ hwrite _ =>
      have hsheets := Source.sheetName?_write hwrite
      have htargets := Source.nameTarget?_write hwrite
      refine ⟨hread, hev.registry, fun word area harea => ?_, fun sheet hsheet => ?_,
        hev.keyed.read.invalidate _⟩
      · exact hev.names word area ((congrFun htargets word).symm.trans harea)
      · exact hev.spelled sheet ((congrFun hsheets sheet).symm.trans hsheet)
  | forgotten => exact { hev with formulas := hread, keyed := Memory.keyed_empty }

theorem Keeps.after (hev : ev.Keeps known) (ops : List Operation)
    (hstored : ∀ before, before <+: ops → ∀ c e, (ev.after before).holding c = .formula e →
      e.NamesSheets (ev.after before).source known)
    (hasked : ∀ query, .ask query ∈ ops → query.NamesSheets ev.toEngine known) :
    (ev.after ops).Keeps known := by
  refine after_induction (P := (Keeps · known)) ops hev.formulas hev
    fun before op events ev' hbefore h => h.step ?_ ?_
  · exact hstored before ((List.prefix_append _ _).trans hbefore)
  · rintro query rfl
    have hquery := hasked query (hbefore.subset (List.mem_append_right _ List.mem_cons_self))
    exact hquery.congr (registry_after hev.formulas before) (sheetName?_after hev.formulas before)

/-- The sheet exists, and the name is as it is stored or as a formula names it. -/
def Knows (ev : Evaluator) (ops : List Operation) (name : String) : Prop :=
  ∃ stored, ev.source.sheetName? name = some stored ∧ (stored = name ∨ ev.Names ops name)

theorem keeps_after {book : Workbook} (hbook : book.Built) (settings : Settings)
    (ops : List Operation) :
    let start := fresh { source := { workbook := book }, settings }
    (start.after ops).Keeps (start.Knows ops) := by
  intro start
  have hstart : start.Keeps (start.Knows ops) := {
    formulas := formulasRead_empty
    registry := rfl
    names := Source.namesInGrid_of_wellFormed hbook.wellFormed
    spelled := fun sheet hsheet => ⟨sheet, hsheet, .inl rfl⟩
    keyed := Memory.keyed_empty }
  refine hstart.after ops ?_ ?_
  · intro before hbefore c e he node hnode name hname stored hstored
    rw [sheetName?_after formulasRead_empty] at hstored
    exact ⟨stored, hstored, .inr (.stored hbefore he hnode hname)⟩
  · intro query hquery
    cases query with
    | cell c => trivial
    | area a => trivial
    | formula entered c =>
        intro e he node hnode name hname stored hstored
        exact ⟨stored, hstored, .inr (.asked hquery he hnode hname)⟩

theorem Reaches.congr {history : List Event} {a cell x : CellAddress}
    (hcell : ∀ c, ev.source.SameCell c cell → ev.source.SameCell c a)
    (h : ev.Reaches history cell x) : ev.Reaches history a x := by
  induction h with
  | read hx hr hc hsame => exact .read hx hr hc (hcell _ hsame)
  | through hx hr hc hsame _ ih => exact .through hx hr hc hsame ih

/-- What has been computed is spelled as the keys of the memory are. -/
theorem RecordedBy.computedAsStored {history : List Event} (hev : ev.RecordedBy history)
    (hkeys : ∀ key, ev.memory.Key key → ev.source.Spells key.sheet) :
    ev.ComputedAsStored history := by
  intro x readings hx
  refine ⟨?_, fun r hr => hkeys _ (.dependency (.precedent (hev.recorded hx hr)))⟩
  obtain ⟨v, asked, hv, -⟩ := hx
  exact hkeys _ (Memory.Remembers.key ⟨v, hv⟩)

/-- **Each cell is kept by one address.** Take any operations on a fresh evaluator of a workbook.
Each address that it then keeps a value or a dependency by is on an existing sheet, spelled as
stored or as a formula on the way names it in front of a reference, however callers, defined names
and `INDIRECT` spell it. If no formula on the way names a sheet but as it is stored, then
all these addresses are spelled as stored, no two remembered ones are of the same cell, and a
successful write, however it spells the sheet, drops the cell and all that was computed from it. -/
theorem keys_spelled {book : Workbook} (hbook : book.Built) (settings : Settings)
    (ops : List Operation) :
    let start := fresh { source := { workbook := book }, settings }
    let ev := start.after ops
    (∀ key, ev.memory.Key key → start.Knows ops key.sheet) ∧
    ((∀ name stored, start.Names ops name → start.source.sheetName? name = some stored →
        stored = name) →
      (∀ key, ev.memory.Key key → ev.source.Spells key.sheet) ∧
      (∀ c d, ev.memory.Remembers c → ev.memory.Remembers d → ev.source.SameCell c d → c = d) ∧
      ∀ cell ev', ev.Writes cell ev' → ∀ x, ev'.memory.Remembers x →
        ¬ ev.source.SameCell x cell ∧ ¬ ev.Reaches (start.history ops) cell x) := by
  intro start ev
  have hkeyed : ev.memory.Keyed (start.Knows ops) := (keeps_after hbook settings ops).keyed
  refine ⟨hkeyed, fun hnames => ?_⟩
  have hev : ev.RecordedBy (start.history ops) := (recordedBy_fresh _).after ops
  have hsheets : ev.source.sheetName? = start.source.sheetName? :=
    sheetName?_after formulasRead_empty ops
  have hkeys (key : Area) (hkey : ev.memory.Key key) : ev.source.Spells key.sheet := by
    obtain ⟨stored, hstored, rfl | hname⟩ := hkeyed key hkey
    · exact (congrFun hsheets _).trans hstored
    · obtain rfl := hnames _ _ hname hstored
      exact (congrFun hsheets _).trans hstored
  have hremembered {c : CellAddress} (hc : ev.memory.Remembers c) : ev.source.Spells c.sheet :=
    hkeys _ hc.key
  refine ⟨hkeys, fun c d hc hd hsame => hsame.eq (hremembered hc) (hremembered hd), ?_⟩
  intro cell ev' hwrites x hx
  obtain ⟨a, content, book', formulas, ha, -, rfl⟩ := hwrites.eq hev.formulas
  have haspells := Source.canonical_spells ha
  obtain ⟨hx, hne, hnot⟩ := (Memory.remembers_invalidate hev.mirrored).mp hx
  have hsame (c : CellAddress) : ev.source.SameCell c cell ↔ ev.source.SameCell c a :=
    Source.sameCell_canonical ha
  refine ⟨fun h => hne (((hsame x).mp h).eq (hremembered hx) haspells), fun h => hnot ?_⟩
  exact (hev.transGen_of_reaches (hev.computedAsStored hkeys) haspells
    (h.congr fun c => (hsame c).mp)).2

set_option maxRecDepth 4000 in
theorem keys_spelled_pair :
    (Workbook.pair true "A1").Built ∧
      ¬ (computedPair "A1").memory.Key (.ofCell otherSpelling) ∧
      (computedPair "A1").memory.Remembers pairFormula ∧
      ∃ ev', (computedPair "A1").Writes otherSpelling ev' ∧
        ¬ ev'.memory.Remembers pairFormula := by
  have hbook := Workbook.built_pair true "A1"
  obtain ⟨-, hspelled⟩ := keys_spelled hbook {} [.ask (.cell pairFormula)]
  have hnames (name stored : String)
      (h : (fresh (.pair true "A1")).Names [.ask (.cell pairFormula)] name)
      (_ : (fresh (.pair true "A1")).source.sheetName? name = some stored) : stored = name := by
    cases h with
    | @stored before c e node hbefore he hnode hname =>
        have hengine : ((fresh (.pair true "A1")).after before).toEngine = .pair true "A1" := by
          obtain rfl | ⟨ops, rfl, hops⟩ := List.prefix_cons_iff.mp hbefore
          · rfl
          · obtain rfl := List.prefix_nil.mp hops
            exact toEngine_reply _ _
        rw [hengine] at he
        have hbook : (Engine.pair true "A1").source.workbook = .pair true "A1" := rfl
        obtain ⟨-, -, rfl⟩ := holding_pair hbook readFormula_firstCell he
        obtain rfl : node = firstCell := List.mem_singleton.mp hnode
        cases hname
    | asked hop => simp at hop
  obtain ⟨hkeys, -, hdropped⟩ := hspelled hnames
  have hvalue : (computedPair "A1").memory.values[pairFormula]? =
      some (.scalar (.bool true)) := by decide +kernel
  have hwrite : (writtenPair "A1" otherSpelling).1 = .ok () := by decide +kernel
  have hwrites : (computedPair "A1").Writes otherSpelling (writtenPair "A1" otherSpelling).2 :=
    .value (Prod.ext hwrite rfl)
  have hlast := congrArg (lastComputation? pairFormula) history_computedPair
  have hreaches : (computedPair "A1").Reaches
      ((fresh (.pair true "A1")).history [.ask (.cell pairFormula)]) otherSpelling pairFormula :=
    .read ⟨_, _, hvalue, hlast⟩ (List.mem_singleton.mpr rfl) (Area.contains_ofCell.mpr rfl)
      ⟨⟨"Sheet1", rfl, rfl⟩, rfl, rfl⟩
  refine ⟨hbook, fun hkey => ?_, ⟨_, hvalue⟩, _, hwrites, fun h => ?_⟩
  · exact absurd (hkeys _ hkey) (by decide +kernel :
      ¬ (computedPair "A1").source.sheetName? "SHEET1" = some "SHEET1")
  · exact (hdropped otherSpelling _ hwrites pairFormula h).2 hreaches

/-- The evaluator that was asked for a formula and for the cell beside it, which reads it in another
spelling of the sheet. -/
def respelled : Evaluator :=
  (fresh (.formulaPair "TRUE" "SHEET1!A1")).after
    [.ask (.cell pairFormula), .ask (.cell pairValue)]

theorem source_respelled : respelled.source = { workbook := .formulaPair "TRUE" "SHEET1!A1" } :=
  congrArg Engine.source ((toEngine_reply _ _).trans (toEngine_reply _ _))

set_option maxRecDepth 4000 in
theorem memory_respelled :
    (respelled.memory.values[pairValue]?, respelled.memory.values[otherSpelling]?,
        respelled.memory.precedents pairFormula) =
      (some (.scalar (.bool true)), some (.scalar (.bool true)), [.cell otherSpelling]) := by
  decide +kernel

set_option maxRecDepth 4000 in
theorem setValue_respelled :
    ((respelled.setValue pairValue (.bool false)).1,
        (respelled.setValue pairValue (.bool false)).2.memory.values[otherSpelling]?,
        (respelled.setValue pairValue (.bool false)).2.memory.values[pairFormula]?) =
      (.ok (), some (.scalar (.bool true)), some (.scalar (.bool true))) := by
  decide +kernel

/-- A cell that is read in two spellings of its sheet is remembered twice, and a write drops one of
the two only, and nothing that read the other. -/
theorem remembered_twice :
    respelled.memory.Remembers pairValue ∧ respelled.memory.Remembers otherSpelling ∧
      respelled.source.SameCell pairValue otherSpelling ∧ pairValue ≠ otherSpelling ∧
      respelled.memory.Key (.ofCell otherSpelling) ∧
      ¬ respelled.source.Spells otherSpelling.sheet ∧
      respelled.memory.Reads pairFormula otherSpelling ∧
      ∃ ev', respelled.Writes pairValue ev' ∧
        ev'.memory.Remembers otherSpelling ∧ ev'.memory.Remembers pairFormula := by
  obtain ⟨hstored, h⟩ := Prod.mk.inj memory_respelled
  obtain ⟨hother, hread⟩ := Prod.mk.inj h
  obtain ⟨hwrite, h⟩ := Prod.mk.inj setValue_respelled
  obtain ⟨hkept, hstale⟩ := Prod.mk.inj h
  rw [source_respelled]
  refine ⟨⟨_, hstored⟩, ⟨_, hother⟩, ⟨⟨"Sheet1", rfl, rfl⟩, rfl, rfl⟩, by decide, ?_, ?_,
    ⟨.cell otherSpelling, ?_, Area.contains_ofCell.mpr rfl⟩, _, .value (Prod.ext hwrite rfl),
    ⟨_, hkept⟩, _, hstale⟩
  · exact Memory.Remembers.key ⟨_, hother⟩
  · unfold Source.Spells
    decide
  · exact hread ▸ List.mem_singleton.mpr rfl

end Evaluator

end Spreadsheet
