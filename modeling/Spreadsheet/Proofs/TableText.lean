-- SUMMARY: The text of a table of texts, booleans and error values is read as that table.
import Spreadsheet.Proofs.Invalidation
import Spreadsheet.Proofs.StoredText

/-!
# The text of tables

A table is shown between braces, with separators between its cells and texts between quotation
marks. As a formula that text should be the table again. A quotation mark in a text is written
twice, so the scanner passes over all of them in pairs and stops at the one that closes the text, as
long as none follows it. Behind a cell stands a separator or the closing brace, which no text,
boolean or error value goes on with. So the scanner cuts the text at the cells, whatever is in them,
and what the grammar derives from the tokens is the table.
-/

namespace Spreadsheet

/-- Text, a boolean or an error value that can be written in a formula. -/
def Scalar.Writable : Scalar → Prop
  | .text _ | .bool _ => True
  | .error e => e ≠ .circular
  | .blank | .number _ => False

/-! ## Quotation marks -/

namespace Table

variable {rest : List Char}

/-- The text with each quotation mark in it written twice. -/
def doubled (cs : List Char) : List Char := cs.flatMap fun c => if c = '"' then ['"', '"'] else [c]

theorem doubled_mark (cs : List Char) : doubled ('"' :: cs) = '"' :: '"' :: doubled cs := rfl

theorem doubled_cons {c : Char} (hc : c ≠ '"') (cs : List Char) :
    doubled (c :: cs) = c :: doubled cs := by
  rw [doubled, List.flatMap_cons, if_neg hc]
  rfl

theorem toList_quoted (s : String) : (quoted s).toList = '"' :: (doubled s.toList ++ ['"']) := by
  rw [quoted, String.toList_ofList]
  rfl

/-- A text goes on to the quotation mark behind all that are written twice. -/
theorem textLength?_doubled (cs : List Char) (hrest : rest.head? ≠ some '"') :
    Formula.Token.textLength? (doubled cs ++ '"' :: rest) = some ((doubled cs).length + 1) := by
  induction cs with
  | nil =>
      rw [doubled, List.flatMap_nil, List.nil_append, Formula.Token.textLength?]
      · rfl
      · rintro cs rfl
        exact hrest rfl
  | cons c cs ih =>
      by_cases hc : c = '"'
      · subst hc
        rw [doubled_mark, List.cons_append, List.cons_append, Formula.Token.textLength?, ih]
        rfl
      · rw [doubled_cons hc, List.cons_append, Formula.Token.textLength?, ih]
        · rfl
        · exact fun _ h _ => hc h
        · exact hc

theorem unquote_doubled (cs : List Char) : Formula.Grammar.unquote (doubled cs) = cs := by
  induction cs with
  | nil => rfl
  | cons c cs ih =>
      by_cases hc : c = '"'
      · subst hc
        rw [doubled_mark, Formula.Grammar.unquote, ih]
      · rw [doubled_cons hc, Formula.Grammar.unquote, ih]
        exact fun _ h _ => hc h

end Table

/-! ## Rows of tables -/

namespace Table

variable {t : Table}

/-- Counting row by row is counting. -/
theorem flatMap_range_mul {α : Type} (f : Nat → α) (rows cols : Nat) :
    ((List.range rows).flatMap fun row => (List.range cols).map fun col => f (row * cols + col)) =
      (List.range (rows * cols)).map f := by
  induction rows with
  | zero => simp
  | succ rows ih =>
      rw [List.range_succ, List.flatMap_append, ih, Nat.succ_mul, List.range_add, List.map_append,
        List.map_map]
      simp

theorem Valid.flatten_toRows (h : t.Valid) : t.toRows.flatten = t.cells.toList := by
  have hcell {row col : Nat} (hrow : row < t.rows) (hcol : col < t.cols) :
      (t.get? row col).getD .blank = t.cells[row * t.cols + col]?.getD .blank := by
    rw [get?, if_pos ⟨hrow, hcol⟩]
  have hrows : t.toRows = (List.range t.rows).map fun row =>
      (List.range t.cols).map fun col => t.cells[row * t.cols + col]?.getD .blank := by
    refine List.map_congr_left fun row hrow => List.map_congr_left fun col hcol => ?_
    exact hcell (List.mem_range.mp hrow) (List.mem_range.mp hcol)
  rw [hrows, ← List.flatMap_def,
    flatMap_range_mul (fun i => t.cells[i]?.getD .blank) t.rows t.cols, ← h.2.2]
  refine List.ext_getElem (by simp) fun i _ hi => ?_
  have hi : i < t.cells.size := hi
  simp [hi]

theorem length_toRows (t : Table) : t.toRows.length = t.rows := by simp [toRows]

theorem length_of_mem_toRows {row : List Scalar} (h : row ∈ t.toRows) : row.length = t.cols := by
  obtain ⟨i, -, rfl⟩ := List.mem_map.mp h
  simp

end Table

namespace Formula

open Text

variable {position : Nat} {text text' rest : List Char} {tokens tokens' : List Token}
  {kind : TokenKind} {s : Scalar}

/-! ## Tokens of text in front of other text -/

namespace Token

/-- The scanner cuts the text in front of `rest` into these tokens and goes on with `rest`. -/
def Scans (position : Nat) (text rest : List Char) (tokens : List Token) : Prop :=
  ofCharsFrom position (text ++ rest) =
    (ofCharsFrom (position + byteLength text) rest).map (tokens ++ ·)

theorem scans_of_lexeme (h : lexeme (text ++ rest) = .ok (kind, text.length)) (position : Nat) :
    Scans position text rest [⟨kind, String.ofList text, position⟩] :=
  ofCharsFrom_append h position

theorem Scans.append (h : Scans position text (text' ++ rest) tokens)
    (h' : Scans (position + byteLength text) text' rest tokens') :
    Scans position (text ++ text') rest (tokens ++ tokens') := by
  unfold Scans at *
  rw [List.append_assoc, h, h', byteLength_append, Nat.add_assoc]
  cases ofCharsFrom (position + (byteLength text + byteLength text')) rest with
  | error m => rfl
  | ok tokens'' => exact congrArg Except.ok (List.append_assoc _ _ _).symm

/-- What can stand behind a cell in the text of a table. -/
def EndsCell (rest : List Char) : Prop :=
  ∃ c cs, rest = c :: cs ∧ (c = ',' ∨ c = ';' ∨ c = '\x7d')

theorem lexeme_quoted (s : String) (hrest : rest.head? ≠ some '"') :
    lexeme ((Table.quoted s).toList ++ rest) = .ok (.text, (Table.quoted s).toList.length) := by
  have htext : (Table.quoted s).toList ++ rest =
      '"' :: (Table.doubled s.toList ++ '"' :: rest) := by
    rw [Table.toList_quoted, List.cons_append, List.append_assoc]
    rfl
  rw [htext, Table.toList_quoted]
  unfold lexeme
  dsimp only
  rw [if_neg (by decide), Table.textLength?_doubled s.toList hrest]
  simp

/-- The token of a quoted text is read as the text. -/
theorem constantOf?_quoted (s : String) (position : Nat) :
    Grammar.constantOf? ⟨.text, Table.quoted s, position⟩ = some (.ok (.text s)) := by
  simp only [Grammar.constantOf?]
  rw [Table.toList_quoted, List.drop_one, List.tail_cons, List.dropLast_concat,
    Table.unquote_doubled, String.ofList_toList]

/-- A word in front of the end of a cell is scanned by itself, unless it is a reference. -/
theorem lexeme_word (c : Char) (cs : List Char) (hletters : (c :: cs).all Char.isAlpha)
    (hrest : EndsCell rest) (hreference : reference? (c :: cs ++ rest) = none) :
    lexeme (c :: cs ++ rest) = (nameKind (c :: cs) rest).map (·, (c :: cs).length) := by
  obtain ⟨hc, hcs⟩ := List.forall_mem_cons.mp (List.all_eq_true.mp hletters)
  have hword : ∀ d ∈ cs, isWordChar d := fun d hd => by
    simp [isWordChar, isLetterOrNumeral, isLetter_of_isAlpha (hcs d hd)]
  have htail : (cs ++ rest).takeWhile isWordChar = cs := by
    refine takeWhile_append hword ?_
    obtain ⟨c, cs, rfl, rfl | rfl | rfl⟩ := hrest <;> (rintro _ ⟨⟩; decide)
  rw [List.cons_append, lexeme_of_isAlpha hc, ← List.cons_append, hreference]
  simp only [nameLexeme, htail, List.drop_left, List.length_cons, Nat.add_comm 1]

theorem lexeme_boolText (b : Bool) (hrest : EndsCell rest) :
    lexeme ((Scalar.boolText b).toList ++ rest) =
      .ok (.bool, (Scalar.boolText b).toList.length) := by
  have hreference : reference? ((Scalar.boolText b).toList ++ rest) = none := by
    obtain ⟨c, cs, rfl, rfl | rfl | rfl⟩ := hrest <;> cases b <;> rfl
  have hkind : nameKind (Scalar.boolText b).toList rest = .ok .bool := by
    obtain ⟨c, cs, rfl, rfl | rfl | rfl⟩ := hrest <;> cases b <;> rfl
  cases b with
  | true =>
      have hword := lexeme_word 'T' ['R', 'U', 'E'] rfl hrest hreference
      exact hword.trans (congrArg _ hkind)
  | false =>
      have hword := lexeme_word 'F' ['A', 'L', 'S', 'E'] rfl hrest hreference
      exact hword.trans (congrArg _ hkind)

theorem lexeme_errorText {e : ErrorValue} (he : e ≠ .circular) (rest : List Char) :
    lexeme (e.text.toList ++ rest) = .ok (.error, e.text.toList.length) := by
  cases e <;> first | exact absurd rfl he | rfl

/-- A cell that can be written is one token, which is read as the cell. -/
theorem exists_lexeme (hs : s.Writable) (hrest : EndsCell rest) : ∃ kind, kind ≠ .blank ∧
    lexeme ((Table.shownCell s).toList ++ rest) = .ok (kind, (Table.shownCell s).toList.length) ∧
    ∀ position, Grammar.constantOf? ⟨kind, Table.shownCell s, position⟩ = some (.ok s) := by
  cases s with
  | text s =>
      have hmark : rest.head? ≠ some '"' := by
        obtain ⟨c, cs, rfl, rfl | rfl | rfl⟩ := hrest <;> simp
      refine ⟨.text, by decide, lexeme_quoted s hmark, fun position => ?_⟩
      exact constantOf?_quoted s position
  | bool b =>
      have htext : equalIgnoringCase (Scalar.boolText b) "TRUE" = b := by cases b <;> decide
      refine ⟨.bool, by decide, lexeme_boolText b hrest, fun _ => ?_⟩
      simp only [Grammar.constantOf?, Table.shownCell, Scalar.shown, htext]
  | error e =>
      refine ⟨.error, by decide, lexeme_errorText hs rest, fun _ => ?_⟩
      simp only [Grammar.constantOf?, Table.shownCell, Scalar.shown, ErrorValue.ofText?_text hs]
  | blank => cases hs
  | number x => cases hs

/-! ## Rows of cells -/

/-- In front of the end of a cell, the text is cut into tokens that make up `a`, none of them
blank. -/
def Renders {α : Type} (Part : List Token → α → Prop) (text : List Char) (a : α) : Prop :=
  ∀ position rest, EndsCell rest → ∃ tokens, Scans position text rest tokens ∧ Part tokens a ∧
    ∀ token ∈ tokens, token.kind ≠ .blank

theorem renders_cell (hs : s.Writable) : Renders Constant (Table.shownCell s).toList s := by
  intro position rest hrest
  obtain ⟨kind, hkind, hlexeme, hconstant⟩ := exists_lexeme hs hrest
  refine ⟨_, scans_of_lexeme hlexeme position, .plain ?_, List.forall_mem_singleton.mpr hkind⟩
  rw [String.ofList_toList]
  exact hconstant position

/-- What is written of several parts with a separator between any two. -/
theorem renders_separated {α : Type} {Part : List Token → α → Prop} {write : α → List Char}
    {mark : Char} (hmark : mark = ',' ∨ mark = ';') {as : List α} (hne : as ≠ [])
    (h : ∀ a ∈ as, Renders Part (write a) a) :
    Renders (Separated (String.ofList [mark]) Part) ([mark].intercalate (as.map write)) as := by
  -- A part is followed by a separator or by what follows them all, and both end it.
  induction as with
  | nil => exact absurd rfl hne
  | cons a as ih =>
      obtain ⟨ha, has⟩ := List.forall_mem_cons.mp h
      intro position rest hrest
      cases as with
      | nil =>
          obtain ⟨tokens, hscan, hpart, hblank⟩ := ha position rest hrest
          rw [List.map_singleton, List.intercalate_singleton]
          exact ⟨tokens, hscan, .single hpart, hblank⟩
      | cons b bs =>
          have hmarkScan (position : Nat) (rest : List Char) :
              Scans position [mark] rest [⟨.separator, String.ofList [mark], position⟩] := by
            refine scans_of_lexeme ?_ position
            obtain rfl | rfl := hmark <;> rfl
          have hends (rest : List Char) : EndsCell (mark :: rest) :=
            ⟨mark, rest, rfl, hmark.imp_right .inl⟩
          obtain ⟨tokens, hscan, hpart, hblank⟩ := ha position _ (hends _)
          obtain ⟨tokens', hscan', hparts, hblank'⟩ :=
            ih (List.cons_ne_nil b bs) has _ rest hrest
          rw [List.map_cons, List.map_cons, List.intercalate_cons_cons, ← List.map_cons]
          refine ⟨_, (hscan.append (hmarkScan _ _)).append hscan', ?_, ?_⟩
          · rw [List.append_assoc]
            exact .cons hpart (isSeparator_iff.mpr ⟨rfl, rfl⟩) hparts
          · simp only [List.mem_append, List.mem_singleton]
            rintro token ((htoken | rfl) | htoken)
            · exact hblank token htoken
            · rintro ⟨⟩
            · exact hblank' token htoken

variable {t : Table}

theorem renders_row {row : List Scalar} (hne : row ≠ []) (hrow : ∀ s ∈ row, s.Writable) :
    Renders (Separated "," Constant) (",".intercalate (row.map Table.shownCell)).toList row := by
  rw [String.toList_intercalate, List.map_map]
  exact renders_separated (.inl rfl) hne fun s hs => renders_cell (hrow s hs)

/-- What stands between the braces is cut into the rows of the table. -/
theorem renders_rows (ht : t.Valid) (hcells : ∀ s ∈ t.cells, s.Writable) :
    Renders (Separated ";" (Separated "," Constant))
      (";".intercalate (t.toRows.map fun row => ",".intercalate (row.map Table.shownCell))).toList
      t.toRows := by
  have hne : t.toRows ≠ [] := List.ne_nil_of_length_pos (t.length_toRows ▸ ht.1)
  rw [String.toList_intercalate, List.map_map]
  refine renders_separated (.inr rfl) hne fun row hrow => renders_row ?_ fun s hs => hcells s ?_
  · exact List.ne_nil_of_length_pos (Table.length_of_mem_toRows hrow ▸ ht.2.1)
  · rw [← Array.mem_toList_iff, ← ht.flatten_toRows]
    exact List.mem_flatten_of_mem hrow hs

theorem tabular_toRows (ht : t.Valid) {tokens : List Token}
    (h : Separated ";" (Separated "," Constant) tokens t.toRows) : Tabular tokens t := by
  have htable := Tabular.intro h fun row => Table.length_of_mem_toRows
  rwa [t.length_toRows, ht.flatten_toRows, Array.toArray_toList] at htable

theorem toList_shown (t : Table) : t.shown.toList = ['\x7b'] ++ ((";".intercalate
    (t.toRows.map fun row => ",".intercalate (row.map Table.shownCell))).toList ++ ['\x7d']) := by
  unfold Table.shown
  simp

end Token

/-! ## The text as a formula -/

namespace Expr

/-- A formula of tokens with no blank between them. -/
theorem ofBody_of_scans {cs : List Char} {e : Expr} (h : Token.Scans 0 cs [] tokens)
    (hblank : ∀ token ∈ tokens, token.kind ≠ .blank) (he : Derives .operand tokens e) :
    ofBody cs = .ok e := by
  refine (ofBody_eq_ok 0).mpr ⟨tokens, ?_, ?_⟩
  · simpa [Token.Scans, Token.ofCharsFrom, Except.map] using h
  · rw [List.filter_eq_self.mpr fun token htoken => by simpa using hblank token htoken]
    exact .ofOperand he

theorem ofBody_shown {t : Table} (ht : t.Valid) (hcells : ∀ s ∈ t.cells, s.Writable) :
    ofBody t.shown.toList = .ok (.table t) := by
  have hopening (rest : List Char) :
      Token.Scans 0 ['\x7b'] rest [⟨.openBrace, String.ofList ['\x7b'], 0⟩] :=
    Token.scans_of_lexeme rfl 0
  have hclosing (position : Nat) :
      Token.Scans position ['\x7d'] [] [⟨.closeBrace, String.ofList ['\x7d'], position⟩] :=
    Token.scans_of_lexeme rfl position
  obtain ⟨tokens, hrows, hparts, hblank⟩ := Token.renders_rows ht hcells
    (0 + byteLength ['\x7b']) ['\x7d'] ⟨'\x7d', [], rfl, .inr (.inr rfl)⟩
  rw [Token.toList_shown]
  refine ofBody_of_scans ((hopening _).append (hrows.append (hclosing _))) ?_
    (.table rfl (Token.tabular_toRows ht hparts) rfl)
  simp only [List.mem_append, List.mem_singleton]
  rintro token (rfl | htoken | rfl)
  · rintro ⟨⟩
  · exact hblank token htoken
  · rintro ⟨⟩

theorem ofBody_quoted (s : String) : ofBody (Table.quoted s).toList = .ok (.literal (.text s)) := by
  have hend : ([] : List Char).head? ≠ some '"' := nofun
  have hscan := Token.scans_of_lexeme (Token.lexeme_quoted s hend) 0
  refine ofBody_of_scans hscan (List.forall_mem_singleton.mpr nofun) (.atom (.constant ?_))
  rw [String.ofList_toList]
  exact Token.constantOf?_quoted s 0

end Expr

end Formula

namespace CellContent

open Text

variable {text mark : String}

/-- The text has no blank at its ends and no `=` in front. -/
def Bare (text : String) : Prop :=
  ∃ first cs last, text.toList = first :: (cs ++ [last]) ∧ isBlank first = false ∧ first ≠ '=' ∧
    isBlank last = false

theorem bare_shown (t : Table) : Bare t.shown :=
  ⟨_, _, _, Formula.Token.toList_shown t, by decide, by decide, by decide⟩

theorem bare_quoted (s : String) : Bare (Table.quoted s) :=
  ⟨_, _, _, Table.toList_quoted s, by decide, by decide, by decide⟩

/-- Bare text is stored as it stands, with an `=` in front of it or not. -/
theorem Bare.formulaBody (htext : Bare text) (hmark : mark = "" ∨ mark = "=") :
    formulaBody (mark ++ text).toList = text.toList := by
  obtain ⟨first, cs, last, htext, hfirst, hequals, hlast⟩ := htext
  have hend (front : List Char) : ∀ c ∈ (front ++ text.toList).getLast?, isBlank c = false := by
    rw [htext, ← List.cons_append, ← List.append_assoc, List.getLast?_concat]
    rintro _ ⟨⟩
    exact hlast
  rw [String.toList_append, CellContent.formulaBody]
  obtain rfl | rfl := hmark
  · have hstart : ∀ c ∈ ([] ++ text.toList).head?, isBlank c = false := by
      rw [htext]
      rintro _ ⟨⟩
      exact hfirst
    rw [show "".toList = [] from rfl, trimChars_eq_self hstart (hend []), List.nil_append, htext]
    split
    · rename_i heq
      exact absurd (List.cons.inj heq).1 hequals
    · rfl
  · have hstart : ∀ c ∈ (['='] ++ text.toList).head?, isBlank c = false := by
      rintro _ ⟨⟩
      decide
    rw [show "=".toList = ['='] from rfl, trimChars_eq_self hstart (hend ['='])]
    rfl

end CellContent

/-! ## Answers -/

/-- Nothing is remembered of the cell that was written. -/
theorem Memory.values_invalidate_self (m : Memory) (a : CellAddress) :
    (m.invalidate a).values[a]? = none := by
  simp only [invalidate, getElem?_foldl_erase, Std.TreeMap.getElem?_erase_self, ite_self]

namespace Evaluator

open Std Formula

variable {ev : Evaluator} {cell : CellAddress} {text : String} {e : Expr} {v : Value}

/-- Visiting a formula that asks for nothing gives its value. -/
theorem visit_done {engine : Engine} {depth : Nat} {chain : List CellAddress} {m m' : Memory}
    {s : Except Failure Value} {log : Log} (h : Runs engine (.cell depth chain cell) m s m' log)
    (hdepth : 0 < depth) (hchain : cell ∉ chain) (he : engine.holding cell = .formula e)
    (hnone : m.values[cell]? = none)
    (hvalue : ∀ site, e.value engine.registry site = .done v) : s = .ok v := by
  cases depth with
  | zero => cases hdepth
  | succ depth =>
      obtain ⟨_, _, _, hruns, -⟩ := h.visit_formula hchain he hnone
      rw [Engine.inquiry, hvalue] at hruns
      cases hruns
      rfl

/-- A formula that asks for nothing is answered by its value at every cell that there is. -/
theorem evaluateFormula_of_done (hm : ev.toEngine.FormulasRead ev.memory)
    (hcell : ev.source.workbook.HasCell cell) (he : ev.registry.readFormula text = .ok e)
    (hvalue : ∀ site, e.value ev.registry site = .done v) :
    (ev.evaluateFormula text cell).1 = .ok v := by
  obtain ⟨a, -, ha, -⟩ := (Source.hasCell_iff (.ofFormula text)).mp hcell
  have hinquiry : (Query.formula text cell).inquiry ev.toEngine = .ok (.done v) := by
    simp only [Query.inquiry, ha, he]
    exact congrArg Except.ok (hvalue _)
  obtain ⟨_, s, m', _, hreply, hruns, -, -⟩ := reply_runs hm hinquiry
  cases hruns
  exact congrArg Prod.fst hreply

/-- A formula that asks for nothing is stored in every cell that there is, and then the cell has its
value, provided that formulas are computed at all. -/
theorem evaluate_stored_of_done (hm : ev.toEngine.FormulasRead ev.memory)
    (hcell : ev.source.workbook.HasCell cell)
    (he : ev.registry.readFormula (CellContent.storedText text) = .ok e)
    (hvalue : ∀ site, e.value ev.registry site = .done v) (hdepth : 0 < ev.settings.maxDepth) :
    ∃ ev', ev.setFormula cell text = (.ok (), ev') ∧ (ev'.evaluate cell).1 = .ok v := by
  obtain ⟨a, -, ha, -⟩ := (Source.hasCell_iff (.ofFormula text)).mp hcell
  obtain ⟨ev', hset, hholding⟩ := setFormula_of_read hm hcell ha he
  have hm' : ev'.toEngine.FormulasRead ev'.memory := by
    have hstep := (step_apply hm (.setFormula cell text)).2
    rwa [apply, hset] at hstep
  -- The write drops what was remembered of the cell, so the formula has to be computed.
  obtain ⟨a', _, book', formulas, ha', hbook, hwritten⟩ := Writes.eq hm (.formula hset)
  obtain rfl : a = a' := Except.ok.inj (ha.symm.trans ha')
  have hcanonical : ev'.source.canonical cell = .ok a := by
    rw [hwritten]
    exact (congrFun (Source.canonical_write hbook) cell).trans ha
  have hnone (formulas : TreeMap String Expr) :
      ({ ev'.memory with formulas } : Memory).values[a]? = none := by
    rw [hwritten]
    exact Memory.values_invalidate_self _ a
  have hdepth : 0 < ev'.settings.maxDepth := by rwa [hwritten]
  have hvalue (site : Site) : e.value ev'.registry site = .done v := by
    rw [hwritten]
    exact hvalue site
  obtain ⟨formulas', s, m', _, hreply, hruns, -, -⟩ :=
    reply_runs hm' (Query.inquiry_cell hcanonical)
  refine ⟨ev', hset, ?_⟩
  cases hruns with
  | asked hvisit hrest =>
      cases visit_done hvisit hdepth List.not_mem_nil hholding (hnone _) hvalue
      cases hrest
      exact congrArg Prod.fst hreply
  | askFailed hvisit =>
      cases visit_done hvisit hdepth List.not_mem_nil hholding (hnone _) hvalue

/-- At every cell that there is, the formula is answered by the value, and once it is stored there
the cell has the value, provided that formulas are computed at all. -/
def Gives (ev : Evaluator) (text : String) (v : Value) : Prop :=
  ∀ cell, ev.source.workbook.HasCell cell →
    (ev.evaluateFormula text cell).1 = .ok v ∧
      (0 < ev.settings.maxDepth →
        ∃ ev', ev.setFormula cell text = (.ok (), ev') ∧ (ev'.evaluate cell).1 = .ok v)

/-- Bare text that is read as an expression which asks for nothing gives the value of it. -/
theorem gives_of_bare (hm : ev.toEngine.FormulasRead ev.memory) (htext : CellContent.Bare text)
    {mark : String} (hmark : mark = "" ∨ mark = "=") (he : Expr.ofBody text.toList = .ok e)
    (hcount : ∀ node ∈ e.nodes, ev.registry.callFailure? node = none)
    (hvalue : ∀ site, e.value ev.registry site = .done v) :
    Expr.ofText (mark ++ text) = .ok e ∧ ev.Gives (mark ++ text) v := by
  have hread {mark : String} (hmark : mark = "" ∨ mark = "=") :
      Expr.ofText (mark ++ text) = .ok e := by
    rw [Expr.ofText, htext.formulaBody hmark, he]
  have hstored : CellContent.storedText (mark ++ text) = "" ++ text := by
    rw [CellContent.storedText, htext.formulaBody hmark, String.ofList_toList, String.empty_append]
  refine ⟨hread hmark, fun cell hcell => ⟨?_, fun hdepth => ?_⟩⟩
  · exact evaluateFormula_of_done hm hcell (Registry.readFormula_eq_ok.mpr ⟨hread hmark, hcount⟩)
      hvalue
  · refine evaluate_stored_of_done hm hcell ?_ hvalue hdepth
    rw [hstored]
    exact Registry.readFormula_eq_ok.mpr ⟨hread (.inl rfl), hcount⟩

/-- **The text of a table is read as the table.** In any state of an evaluator, take a table of
texts, booleans and error values, whatever the texts are. As a formula, with an `=` in front or
not, its text is read as the table. At every cell that there is, the evaluator answers it by the
table, and so it does once it is stored there. A text between quotation marks, with those in it
written twice, is read as the text. -/
theorem shown_reads_back (engine : Engine) (ops : List Operation) {mark : String}
    (hmark : mark = "" ∨ mark = "=") :
    let ev := (fresh engine).after ops
    (∀ t : Table, t.Valid → (∀ s ∈ t.cells, s.Writable) →
      Expr.ofText (mark ++ t.shown) = .ok (.table t) ∧
        ev.Gives (mark ++ t.shown) (.table t)) ∧
      ∀ s, Expr.ofText (mark ++ Table.quoted s) = .ok (.literal (.text s)) ∧
        ev.Gives (mark ++ Table.quoted s) (.text s) := by
  intro ev
  have hm : ev.toEngine.FormulasRead ev.memory :=
    formulasRead_after Engine.formulasRead_empty ops
  refine ⟨fun t ht hcells => ?_, fun s => ?_⟩
  · refine gives_of_bare hm (CellContent.bare_shown t) hmark (Expr.ofBody_shown ht hcells) ?_
      fun _ => rfl
    -- The table and the constants in it are no calls, so no number of arguments can be wrong.
    intro node hnode
    obtain rfl | hnode := List.mem_cons.mp hnode
    · rfl
    · obtain ⟨s, -, rfl⟩ := List.mem_map.mp hnode
      rfl
  · exact gives_of_bare hm (CellContent.bare_quoted s) hmark (Expr.ofBody_quoted s)
      (List.forall_mem_singleton.mpr rfl) fun _ => rfl

/-- Two rows whose texts are full of the marks that tables are written with. -/
def marksTable : Table :=
  ⟨2, 2, #[.text "\";\"", .bool true, .error .notAvailable, .text "\x7d,\""]⟩

set_option maxRecDepth 4000 in
/-- The table is read as it was shown, and so is a text of two quotation marks. -/
theorem shown_reads_back_marks :
    let ev := fresh (.pair true "A1")
    (marksTable.Valid ∧ (∀ s ∈ marksTable.cells, s.Writable) ∧
      marksTable.shown = "\x7b\"\"\";\"\"\",TRUE;#N/A,\"\x7d,\"\"\"\x7d") ∧
      ev.source.workbook.HasCell Workbook.pairFormula ∧ 0 < ev.settings.maxDepth ∧
      Expr.ofText ("=" ++ marksTable.shown) = .ok (.table marksTable) ∧
      (ev.evaluateFormula ("=" ++ marksTable.shown) Workbook.pairFormula).1 =
        .ok (.table marksTable) ∧
      (∃ ev', ev.setFormula Workbook.pairFormula ("=" ++ marksTable.shown) = (.ok (), ev') ∧
        (ev'.evaluate Workbook.pairFormula).1 = .ok (.table marksTable)) ∧
      Expr.ofText ("=" ++ Table.quoted "\"\"") = .ok (.literal (.text "\"\"")) := by
  intro ev
  have hvalid : marksTable.Valid := ⟨by decide, by decide, rfl⟩
  have hcells : ∀ s ∈ marksTable.cells, s.Writable := by
    simp [marksTable, Scalar.Writable]
  have hcell : ev.source.workbook.HasCell Workbook.pairFormula := ⟨by decide, by decide⟩
  have hdepth : 0 < ev.settings.maxDepth := by decide
  obtain ⟨htables, htexts⟩ := shown_reads_back (.pair true "A1") [] (.inr rfl)
  obtain ⟨hread, hgives⟩ := htables marksTable hvalid hcells
  obtain ⟨hanswer, hstored⟩ := hgives _ hcell
  exact ⟨⟨hvalid, hcells, by decide⟩, hcell, hdepth, hread, hanswer, hstored hdepth,
    (htexts _).1⟩

end Evaluator

end Spreadsheet
