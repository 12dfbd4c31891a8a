-- SUMMARY: What is read of the text that is stored for an entered formula.
import Spreadsheet.Proofs.Grammar
import Spreadsheet.Proofs.Refusals
import Spreadsheet.Proofs.Respelling

/-!
# Stored formulas

The text of a formula is stored without the `=` in front, and what is stored is read as a formula
that may have an `=` in front of it once more. Where no second `=` follows the first one, both
texts are read as the same expression: blanks in front are no part of a formula, and only faults
tell where a token stands. No formula that is entered starts with an operator other than a sign,
so a second `=` is a fault of the entered text. It is lost with the reading of the stored text.
-/

namespace Spreadsheet

namespace Text

variable {cs ds : List Char}

theorem trimRight_eq_self (hlast : ∀ c ∈ cs.getLast?, isBlank c = false) : trimRight cs = cs := by
  cases h : cs.reverse with
  | nil => rw [trimRight, h, List.reverse_eq_nil_iff.mp h]; rfl
  | cons c rest =>
      have hc : isBlank c = false := hlast c (by rw [← List.head?_reverse, h]; rfl)
      rw [trimRight, h, List.dropWhile_cons_of_neg (by simp [hc]), ← h, List.reverse_reverse]

/-- What is left behind the blanks at the two ends does not end with a blank. -/
theorem isBlank_getLast_trimChars (cs : List Char) :
    ∀ c ∈ (trimChars cs).getLast?, isBlank c = false := by
  intro c hc
  have hnot := List.head?_dropWhile_not isBlank (trimLeft cs).reverse
  rw [trimChars, trimRight, List.getLast?_reverse] at hc
  rw [Option.mem_def.mp hc] at hnot
  simpa using hnot

/-- Text behind the front of text that does not end with a blank has blanks in front only. -/
theorem trimChars_of_suffix (h : ds <:+ cs) (hlast : ∀ c ∈ cs.getLast?, isBlank c = false) :
    trimChars ds = trimLeft ds := by
  refine trimRight_eq_self fun c hc => hlast c ?_
  obtain ⟨front, hfront⟩ : trimLeft ds <:+ cs := (List.dropWhile_suffix isBlank).trans h
  rw [← hfront, List.getLast?_append, Option.mem_def.mp hc]
  rfl

end Text

namespace CellContent

open Text

/-- Taking off an `=` leaves no blanks behind. -/
theorem trimChars_formulaBody (cs : List Char) :
    trimChars (formulaBody cs) = trimLeft (formulaBody cs) := by
  refine trimChars_of_suffix ?_ (isBlank_getLast_trimChars cs)
  unfold formulaBody
  split
  · rename_i rest h
    exact h ▸ List.suffix_cons _ _
  · exact List.suffix_refl _

/-- The text that is stored for an entered formula. -/
def storedText (entered : String) : String := String.ofList (formulaBody entered.toList)

/-- A second `=` follows the one in front of the formula, with nothing but blanks between them. -/
def MarkedAgain (entered : String) : Prop := (trimLeft (storedText entered).toList).head? = some '='

/-- A second `=` is taken off when the stored text is read, and so are the blanks in front. -/
theorem formulaBody_storedText (entered : String) :
    (¬ MarkedAgain entered →
      formulaBody (storedText entered).toList = trimLeft (storedText entered).toList) ∧
    ∀ rest, trimLeft (storedText entered).toList = '=' :: rest →
      formulaBody (storedText entered).toList = rest := by
  have htrim : trimChars (storedText entered).toList = trimLeft (storedText entered).toList := by
    rw [storedText, String.toList_ofList, trimChars_formulaBody]
  constructor
  · intro hmarked
    rw [formulaBody, htrim]
    split
    · rename_i rest h
      exact absurd (by rw [MarkedAgain, h]; rfl) hmarked
    · rfl
  · intro rest h
    rw [formulaBody, htrim]
    split
    · rename_i rest' h'
      exact (List.cons.inj (h'.symm.trans h)).2
    · rename_i hnot
      exact absurd h (hnot rest)

end CellContent

namespace Formula

open Text

/-! ## Tokens further on in the text -/

namespace Token

variable {token : Token} {f : Token → Token} {ts : List Token}

/-- The token `k` bytes further on. -/
def moved (k : Nat) (token : Token) : Token := { token with position := token.position + k }

/-- What is made of a token is the same but for where it stands. -/
def Keeps (f : Token → Token) : Prop :=
  ∀ token, (f token).kind = token.kind ∧ (f token).text = token.text

theorem keeps_moved (k : Nat) : Keeps (moved k) := fun _ => ⟨rfl, rfl⟩

theorem ofCharsFrom_moved (k position : Nat) (cs : List Char) :
    ofCharsFrom (position + k) cs =
      ((ofCharsFrom position cs).map (List.map (moved k))).mapError
        fun m => { m with position := m.position + k } := by
  fun_induction ofCharsFrom position cs with
  | case1 position => rw [ofCharsFrom]; rfl
  | case2 position c cs offset cause hlexeme =>
      rw [ofCharsFrom, hlexeme]
      simp only [Except.map, Except.mapError, Nat.add_right_comm]
  | case3 position c cs kind n hlexeme text ih =>
      rw [ofCharsFrom, hlexeme]
      simp only
      rw [Nat.add_right_comm, ih]
      cases ofCharsFrom (position + byteLength text) (cs.drop (n - 1)) with
      | error m => rfl
      | ok tokens => rfl

theorem Keeps.isOperator (hf : Keeps f) (symbol : String) :
    (f token).isOperator symbol = token.isOperator symbol := by
  rw [Token.isOperator, (hf token).1, (hf token).2, Token.isOperator]

theorem Keeps.isSeparator (hf : Keeps f) (symbol : String) :
    (f token).isSeparator symbol = token.isSeparator symbol := by
  rw [Token.isSeparator, (hf token).1, (hf token).2, Token.isSeparator]

theorem Keeps.constantOf? (hf : Keeps f) {s : Scalar}
    (h : Grammar.constantOf? token = some (.ok s)) :
    Grammar.constantOf? (f token) = some (.ok s) := by
  unfold Grammar.constantOf? at h ⊢
  rw [(hf token).1, (hf token).2]
  split at h
  · simp only [Option.some.injEq] at h ⊢
    split at h
    · exact h
    · cases h
  · exact h
  · exact h
  · simp only [Option.some.injEq] at h ⊢
    split at h
    · exact h
    · cases h
  · cases h

theorem Keeps.referenceOf (hf : Keeps f) {e : Expr} (h : Grammar.referenceOf token = .ok e) :
    Grammar.referenceOf (f token) = .ok e := by
  unfold Grammar.referenceOf at h ⊢
  rw [mapError_eq_ok] at h ⊢
  rw [(hf token).2]
  exact h

theorem Keeps.atom (hf : Keeps f) {e : Expr} (h : Atom token e) : Atom (f token) e := by
  cases h with
  | constant h => exact .constant (hf.constantOf? h)
  | reference hkind h => exact .reference ((hf token).1.symm ▸ hkind) (hf.referenceOf h)
  | name hkind =>
      rw [← (hf token).2]
      exact .name ((hf token).1.trans hkind)

theorem Keeps.constant (hf : Keeps f) {s : Scalar} (h : Constant ts s) : Constant (ts.map f) s := by
  cases h with
  | plain h => exact .plain (hf.constantOf? h)
  | plus hsign hkind h =>
      exact .plus ((hf.isOperator _).trans hsign) ((hf _).1.trans hkind) (hf.constantOf? h)
  | minus hsign hkind h =>
      exact .minus ((hf.isOperator _).trans hsign) ((hf _).1.trans hkind) (hf.constantOf? h)

theorem Keeps.separated (hf : Keeps f) {α : Type} {symbol : String}
    {Part : List Token → α → Prop} {as : List α} (hpart : ∀ {ts a}, Part ts a → Part (ts.map f) a)
    (h : Separated symbol Part ts as) : Separated symbol Part (ts.map f) as := by
  induction h with
  | single ha => exact .single (hpart ha)
  | cons ha hmark _ ih =>
      rw [List.map_append, List.map_cons]
      exact .cons (hpart ha) ((hf.isSeparator _).trans hmark) ih

end Token

mutual

/-- What is derived from tokens is derived from them wherever they stand. -/
theorem Derives.map {f : Token → Token} (hf : Token.Keeps f) {p : Phrase} {ts : List Token}
    {e : Expr} : Derives p ts e → Derives p (ts.map f) e
  | .tighter hpq he => .tighter hpq (he.map hf)
  | .binary hpq hop hl hsign hr => by
      rw [List.map_append, List.map_cons]
      exact .binary hpq hop (hl.map hf) ((hf.isOperator _).trans hsign) (hr.map hf)
  | .percent he hsign => by
      rw [List.map_append]
      exact .percent (he.map hf) ((hf.isOperator _).trans hsign)
  | .minus hsign he => .minus ((hf.isOperator _).trans hsign) (he.map hf)
  | .plus hsign he => .plus ((hf.isOperator _).trans hsign) (he.map hf)
  | .atom he => .atom (hf.atom he)
  | .noArguments hfunction hopening hclosing => by
      rw [← (hf _).2]
      exact .noArguments ((hf _).1.trans hfunction) ((hf _).1.trans hopening)
        ((hf _).1.trans hclosing)
  | .call hfunction hopening hes hclosing => by
      rw [List.map_cons, List.map_cons, List.map_append, ← (hf _).2]
      exact .call ((hf _).1.trans hfunction) ((hf _).1.trans hopening) (separated_map hf hes)
        ((hf _).1.trans hclosing)
  | .group hopening he hclosing => by
      rw [List.map_cons, List.map_append]
      exact .group ((hf _).1.trans hopening) (he.map hf) ((hf _).1.trans hclosing)
  | .union hopening hes hclosing => by
      rw [List.map_cons, List.map_append]
      exact .union ((hf _).1.trans hopening) (separated_map hf hes) ((hf _).1.trans hclosing)
  | .table hopening ht hclosing => by
      rw [List.map_cons, List.map_append]
      refine .table ((hf _).1.trans hopening) ?_ ((hf _).1.trans hclosing)
      cases ht with
      | intro hrows hwidth => exact .intro (hf.separated (hf.separated hf.constant) hrows) hwidth

theorem separated_map {f : Token → Token} (hf : Token.Keeps f) {ts : List Token} {es : List Expr} :
    Separated "," (Derives .comparison) ts es →
      Separated "," (Derives .comparison) (ts.map f) es
  | .single he => .single (he.map hf)
  | .cons he hmark hes => by
      rw [List.map_append, List.map_cons]
      exact .cons (he.map hf) ((hf.isSeparator _).trans hmark) (separated_map hf hes)

end

/-- No phrase starts with an operator other than a sign. -/
theorem Derives.sign_of_operator {e : Expr} : ∀ {p ts}, Derives p ts e →
    ∀ token ∈ ts.head?, token.kind = .operator → token.text = "-" ∨ token.text = "+"
  | _, _, .tighter _ he => he.sign_of_operator
  | _, _, .binary _ _ hl _ _ => by
      have hsign := hl.sign_of_operator
      obtain ⟨token, rest, rfl, -⟩ := hl.exists_cons
      exact hsign
  | _, _, .percent he _ => by
      have hsign := he.sign_of_operator
      obtain ⟨token, rest, rfl, -⟩ := he.exists_cons
      exact hsign
  | _, _, .minus hsign _ => by
      rintro token ⟨⟩ -
      exact .inl (Token.isOperator_iff.mp hsign).2
  | _, _, .plus hsign _ => by
      rintro token ⟨⟩ -
      exact .inr (Token.isOperator_iff.mp hsign).2
  | _, _, .atom he => by
      rintro token ⟨⟩ hkind
      exact absurd hkind he.kind_ne.1
  | _, _, .noArguments hfirst _ _ | _, _, .call hfirst _ _ _ | _, _, .group hfirst _ _
  | _, _, .union hfirst _ _ | _, _, .table hfirst _ _ => by
      rintro token ⟨⟩ hkind
      cases hfirst.symm.trans hkind

/-- Moving tokens makes no difference to what is derived from those that are no blanks. -/
theorem derives_moved (k : Nat) {p : Phrase} {tokens : List Token} {e : Expr} :
    Derives p ((tokens.map (Token.moved k)).filter (·.kind != .blank)) e ↔
      Derives p (tokens.filter (·.kind != .blank)) e := by
  have hfilter : (tokens.map (Token.moved k)).filter (·.kind != .blank) =
      (tokens.filter (·.kind != .blank)).map (Token.moved k) := List.filter_map
  rw [hfilter]
  constructor
  · intro he
    have hback := he.map (f := fun token => { token with position := token.position - k })
      fun _ => ⟨rfl, rfl⟩
    rw [List.map_map] at hback
    have hid : (tokens.filter (·.kind != .blank)).map
        ((fun token => { token with position := token.position - k }) ∘ Token.moved k) =
          tokens.filter (·.kind != .blank) := by
      refine List.map_id'' (fun token => ?_) _
      simp [Token.moved]
    rwa [hid] at hback
  · exact fun he => he.map (Token.keeps_moved k)

namespace Expr

variable {cs : List Char} {e : Expr}

/-- The body of a formula is read as what the grammar derives from its tokens, wherever the body
stands. -/
theorem ofBody_eq_ok (position : Nat) :
    ofBody cs = .ok e ↔ ∃ tokens, Token.ofCharsFrom position cs = .ok tokens ∧
      Derives .comparison (tokens.filter (·.kind != .blank)) e := by
  have hmoved := Token.ofCharsFrom_moved position 0 cs
  rw [Nat.zero_add] at hmoved
  simp only [ofBody, bind_eq_ok, ofTokens_eq_ok, hmoved, mapError_eq_ok, map_eq_ok]
  constructor
  · rintro ⟨tokens, htokens, he⟩
    exact ⟨_, ⟨tokens, htokens, rfl⟩, (derives_moved position).mpr he⟩
  · rintro ⟨_, ⟨tokens, htokens, rfl⟩, he⟩
    exact ⟨tokens, htokens, (derives_moved position).mp he⟩

/-- Blanks in front of the body make no difference to what it is read as. -/
theorem ofBody_trimLeft : ofBody (trimLeft cs) = .ok e ↔ ofBody cs = .ok e := by
  have hcs : cs.takeWhile isBlank ++ trimLeft cs = cs := List.takeWhile_append_dropWhile
  cases hfront : cs.takeWhile isBlank with
  | nil => rw [hfront, List.nil_append] at hcs; rw [hcs]
  | cons c front =>
      rw [hfront] at hcs
      have hc : isBlank c := List.all_eq_true.mp List.all_takeWhile c (hfront ▸ List.mem_cons_self)
      have hlexeme : Token.lexeme (c :: front ++ trimLeft cs) =
          .ok (.blank, (c :: front).length) := by
        unfold Token.lexeme
        simp only [List.cons_append, if_pos hc]
        rw [← List.cons_append, hcs, hfront]
      have htokens := Token.ofCharsFrom_append hlexeme 0
      rw [hcs, Nat.zero_add] at htokens
      have hwhole : ofBody cs = .ok e ↔ _ := ofBody_eq_ok 0
      rw [hwhole, ofBody_eq_ok (byteLength (c :: front)), htokens]
      simp only [map_eq_ok, exists_exists_and_eq_and]
      rfl

/-- No formula starts with an `=`. -/
theorem ofBody_equals (rest : List Char) : ofBody ('=' :: rest) ≠ .ok e := by
  intro h
  obtain ⟨tokens, htokens, he⟩ := (ofBody_eq_ok 0).mp h
  have hlexeme : Token.lexeme (['='] ++ rest) = .ok (.operator, ['='].length) := rfl
  rw [← List.singleton_append, Token.ofCharsFrom_append hlexeme, map_eq_ok] at htokens
  obtain ⟨others, -, rfl⟩ := htokens
  have hsign := he.sign_of_operator _ rfl rfl
  revert hsign
  decide

/-- Where no second `=` follows the first one, the stored text is read as the entered one. Where
one does, the entered text is malformed and the stored one is read as what follows. -/
theorem ofText_storedText (entered : String) :
    (¬ CellContent.MarkedAgain entered →
      ∀ e, ofText (CellContent.storedText entered) = .ok e ↔ ofText entered = .ok e) ∧
    ∀ rest, trimLeft (CellContent.storedText entered).toList = '=' :: rest →
      (∀ e, ofText entered ≠ .ok e) ∧
        ofText (CellContent.storedText entered) = ofBody rest := by
  obtain ⟨honce, htwice⟩ := CellContent.formulaBody_storedText entered
  have hentered : ofText entered = ofBody (CellContent.storedText entered).toList := by
    rw [ofText, CellContent.storedText, String.toList_ofList]
  constructor
  · intro hmarked e
    rw [ofText, honce hmarked, hentered, ofBody_trimLeft]
  · intro rest hrest
    refine ⟨fun e he => ?_, by rw [ofText, htwice rest hrest]⟩
    rw [hentered, ← ofBody_trimLeft, hrest] at he
    exact ofBody_equals rest he

end Expr

end Formula

/-! ## Storing formulas -/

/-- What was written to a cell is read of it. -/
theorem Workbook.read_written {book book' : Workbook} {a : CellAddress} {content : CellContent}
    (h : book.write a content = .ok book') (hcontent : content.isEmpty = false) :
    book'.read a = .ok content := by
  obtain ⟨hbounds, hsheet, -⟩ := write_eq_ok.mp h
  obtain ⟨sheet, hsheet⟩ := Option.isSome_iff_exists.mp hsheet
  refine read_eq_ok.mpr ⟨hbounds, sheet.put a.row a.col content, ?_, ?_⟩
  · rw [sheet?_write h, hsheet, Option.map_some, if_pos (Text.equalIgnoringCase_refl _)]
  · rw [Sheet.get?_put_self hcontent]
    rfl

open CellContent Formula

theorem Registry.readFormula_storedText {registry : Registry} {entered : String}
    {e : Formula.Expr} (hmarked : ¬ MarkedAgain entered) :
    registry.readFormula (storedText entered) = .ok e ↔ registry.readFormula entered = .ok e := by
  rw [readFormula_eq_ok, readFormula_eq_ok, (Expr.ofText_storedText entered).1 hmarked e]

namespace Evaluator

variable {ev : Evaluator} {cell a : CellAddress} {entered : String} {e : Formula.Expr}

/-- A formula whose stored text can be read is stored in every cell that there is, and then the
cell holds what is read of the stored text. -/
theorem setFormula_of_read (hm : ev.toEngine.FormulasRead ev.memory)
    (hcell : ev.source.workbook.HasCell cell) (ha : ev.source.canonical cell = .ok a)
    (he : ev.registry.readFormula (storedText entered) = .ok e) :
    ∃ ev', ev.setFormula cell entered = (.ok (), ev') ∧ ev'.holding a = .formula e := by
  obtain ⟨formulas, -, ⟨hrejects, -⟩ | ⟨-, hset⟩⟩ := setFormula_eq hm cell entered
  · refine absurd (fun text htext => ⟨e, ?_⟩) hrejects
    cases htext
    exact he
  · obtain ⟨a', book', ha', hbook⟩ := (Source.hasCell_iff (.ofFormula entered)).mp hcell
    obtain rfl : a = a' := Except.ok.inj (ha.symm.trans ha')
    refine ⟨_, hset.trans (write_of_ok ha hbook), ?_⟩
    exact Engine.holding_eq_formula.mpr ⟨_, _, Workbook.read_written hbook rfl, rfl, he⟩

/-- A formula whose stored text cannot be read is refused. -/
theorem setFormula_of_malformed (hm : ev.toEngine.FormulasRead ev.memory) {failure : Failure}
    (he : ev.registry.readFormula (storedText entered) = .error failure) (cell : CellAddress) :
    ∃ failure, (ev.setFormula cell entered).1 = .error failure := by
  refine (setFormula_refusedFor hm cell entered).refused.mpr fun ⟨_, haccepts⟩ => ?_
  obtain ⟨e, he'⟩ := haccepts _ rfl
  cases he.symm.trans he'

/-- **A formula is stored as it was entered.** In any state of an evaluator, take a formula in
which no second `=` follows the first one. The stored text is read if and only if the entered one
is, and as the same expression. In every cell that there is, the evaluator either answers the
formula by its expression, and stores it so that the cell holds that expression, or it refuses to
answer it because it cannot be read, and refuses to store it. A formula with a second `=` behind
the first one cannot be read as it was entered. What is stored of it is read as what stands behind
the second one, and it is stored if and only if that can be read. -/
theorem stored_as_entered (engine : Engine) (ops : List Operation) (entered : String) :
    let ev := (fresh engine).after ops
    (¬ MarkedAgain entered →
      (∀ e, Expr.ofText (storedText entered) = .ok e ↔ Expr.ofText entered = .ok e) ∧
        ∀ cell, ev.source.workbook.HasCell cell → ∃ a, ev.source.canonical cell = .ok a ∧
          ((∃ e ev', ev.registry.readFormula entered = .ok e ∧
              (Query.formula entered cell).inquiry ev.toEngine =
                .ok (e.value ev.registry ⟨ev.source, a, 0⟩) ∧
              ev.setFormula cell entered = (.ok (), ev') ∧ ev'.holding a = .formula e) ∨
            ∃ failure, ev.registry.readFormula entered = .error failure ∧
              (ev.evaluateFormula entered cell).1 = .error failure ∧
              ∃ failure', (ev.setFormula cell entered).1 = .error failure')) ∧
      ∀ rest, Text.trimLeft (storedText entered).toList = '=' :: rest →
        (∀ e, Expr.ofText entered ≠ .ok e) ∧ Expr.ofText (storedText entered) = Expr.ofBody rest ∧
          ∀ cell, ev.source.workbook.HasCell cell → ((ev.setFormula cell entered).1 = .ok () ↔
            ∃ e, ev.registry.readFormula (storedText entered) = .ok e) := by
  intro ev
  have hm : ev.toEngine.FormulasRead ev.memory :=
    formulasRead_after Engine.formulasRead_empty ops
  obtain ⟨hread, hmarked⟩ := Expr.ofText_storedText entered
  constructor
  · intro honce
    refine ⟨hread honce, fun cell hcell => ?_⟩
    obtain ⟨a, -, ha, -⟩ := (Source.hasCell_iff (.ofFormula entered)).mp hcell
    refine ⟨a, ha, ?_⟩
    have hquery : (Query.formula entered cell).inquiry ev.toEngine =
        (ev.registry.readFormula entered).map fun e => e.value ev.registry ⟨ev.source, a, 0⟩ := by
      simp only [Query.inquiry, ha]
      cases ev.registry.readFormula entered <;> rfl
    have hstored (e : Formula.Expr) := ev.registry.readFormula_storedText (e := e) honce
    -- without a second mark both texts are read alike, so answering and storing refuse together
    cases he : ev.registry.readFormula entered with
    | ok e =>
        obtain ⟨ev', hset, hholding⟩ := setFormula_of_read hm hcell ha ((hstored e).mpr he)
        exact .inl ⟨e, ev', rfl, by rw [hquery, he]; rfl, hset, hholding⟩
    | error failure =>
        obtain ⟨_, hreply, -⟩ := reply_error hm (hquery.trans (by rw [he]; rfl))
        refine .inr ⟨failure, rfl, congrArg Prod.fst hreply, ?_⟩
        cases hagain : ev.registry.readFormula (storedText entered) with
        | ok e => cases he.symm.trans ((hstored e).mp hagain)
        | error failure' => exact setFormula_of_malformed hm hagain cell
  · intro rest hrest
    obtain ⟨hentered, hbody⟩ := hmarked rest hrest
    refine ⟨hentered, hbody, fun cell hcell => ?_⟩
    obtain ⟨a, -, ha, -⟩ := (Source.hasCell_iff (.ofFormula entered)).mp hcell
    -- with a second mark only the stored text counts
    cases he : ev.registry.readFormula (storedText entered) with
    | ok e =>
        obtain ⟨ev', hset, -⟩ := setFormula_of_read hm hcell ha he
        exact iff_of_true (congrArg Prod.fst hset) ⟨e, rfl⟩
    | error failure =>
        obtain ⟨failure', hset⟩ := setFormula_of_malformed hm he cell
        refine iff_of_false (fun hok => ?_) fun hsome => ?_
        · cases hset.symm.trans hok
        · obtain ⟨e, hok⟩ := hsome
          cases hok

set_option maxRecDepth 4000 in
/-- A formula with blanks on both sides of its `=` is stored as it was entered. One with a second
`=` is not. -/
theorem stored_as_entered_pair :
    let ev := fresh (.pair true "A1")
    (¬ MarkedAgain " = TRUE" ∧ ev.source.workbook.HasCell Workbook.pairFormula ∧
      (∀ e, Expr.ofText (storedText " = TRUE") = .ok e ↔ Expr.ofText " = TRUE" = .ok e) ∧
      ∃ ev', ev.setFormula Workbook.pairFormula " = TRUE" = (.ok (), ev') ∧
        ev'.holding Workbook.pairFormula = .formula (.literal (.bool true))) ∧
      Text.trimLeft (storedText "= =TRUE").toList = '=' :: ['T', 'R', 'U', 'E'] ∧
      ∀ e, Expr.ofText "= =TRUE" ≠ .ok e := by
  intro ev
  have hmarked : ¬ MarkedAgain " = TRUE" := by
    unfold MarkedAgain
    decide
  have hcell : ev.source.workbook.HasCell Workbook.pairFormula := ⟨by decide, by decide⟩
  have hrest : Text.trimLeft (storedText "= =TRUE").toList = '=' :: ['T', 'R', 'U', 'E'] := by
    decide
  obtain ⟨hread, hcells⟩ := (stored_as_entered (.pair true "A1") [] " = TRUE").1 hmarked
  refine ⟨⟨hmarked, hcell, hread, ?_⟩, hrest,
    ((stored_as_entered (.pair true "A1") [] "= =TRUE").2 _ hrest).1⟩
  have htrue : ev.registry.readFormula " = TRUE" = .ok (.literal (.bool true)) := by decide +kernel
  have hcanonical : ev.source.canonical Workbook.pairFormula = .ok Workbook.pairFormula := by decide +kernel
  obtain ⟨a, ha, ⟨e, ev', he, -, hset, hholding⟩ | ⟨failure, he, -⟩⟩ := hcells _ hcell
  · cases he.symm.trans htrue
    cases ha.symm.trans hcanonical
    exact ⟨ev', hset, hholding⟩
  · cases he.symm.trans htrue

set_option maxRecDepth 4000 in
/-- A formula with a second `=` is stored, although it cannot be read as it was entered. -/
theorem marked_again_stored :
    let ev := fresh (.pair true "A1")
    Expr.ofText (storedText "==TRUE") = .ok (.literal (.bool true)) ∧
      Expr.ofText "==TRUE" = .error ⟨0, .unexpected "="⟩ ∧
      (ev.evaluateFormula "==TRUE" Workbook.pairFormula).1 =
        .error (.malformed ⟨0, .unexpected "="⟩) ∧
      (ev.setFormula Workbook.pairFormula "==TRUE").1 = .ok () ∧
      ((ev.setFormula Workbook.pairFormula "==TRUE").2.evaluate Workbook.pairFormula).1 =
        .ok (.scalar (.bool true)) := by
  refine ⟨by decide +kernel, by decide +kernel, by decide +kernel, by decide +kernel, by decide +kernel⟩

end Evaluator

end Spreadsheet
