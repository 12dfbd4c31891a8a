-- SUMMARY: Formulas that spell the sheets of their references in another case.
import Spreadsheet.Proofs.LetterCase
import Spreadsheet.Proofs.ReferenceFormulas

/-!
# Other spellings of sheets

The sheets in front of the references of a formula can be spelled in another case. The tokens stay
where they are and of the kinds they are, so the grammar takes them in the same way, but for one
thing: a reference that repeats its sheet has to repeat the spelling. Where it does, either both
formulas are read or neither, and their expressions differ in the spelling of sheets only.
-/

namespace Spreadsheet

open Text

namespace Formula

/-! ## References -/

namespace Qualifier

variable {q q' : Qualifier}

/-- The name in another case, and apostrophes around it if there were some. -/
inductive Respells : Qualifier → Qualifier → Prop where
  | word {name name' : List Char} {hne : name ≠ []} {hne' : name' ≠ []}
      {hword : ∀ c ∈ name, isWordChar c} {hword' : ∀ c ∈ name', isWordChar c} :
      lowered name' = lowered name → Respells (.word name hne hword) (.word name' hne' hword')
  | quoted {name name' : List Char} {hne : name ≠ []} {hne' : name' ≠ []} :
      lowered name' = lowered name → Respells (.quoted name hne) (.quoted name' hne')

theorem Respells.symm (h : q.Respells q') : q'.Respells q := by
  cases h with
  | word h => exact .word h.symm
  | quoted h => exact .quoted h.symm

theorem Respells.lowered_name (h : q.Respells q') : lowered q'.name = lowered q.name := by
  cases h with
  | word h => exact h
  | quoted h => exact h

theorem lowered_double (name : List Char) :
    lowered (SheetName.double name) = SheetName.double (lowered name) := by
  induction name with
  | nil => rfl
  | cons c cs ih =>
      by_cases hc : c = '\''
      · subst hc
        simp only [SheetName.double, if_true, lowered_cons, ih]
        rfl
      · have hc' := mt (toLower_eq_iff (by decide)).mp hc
        simp only [SheetName.double, if_neg hc, lowered_cons, if_neg hc', ih]

theorem Respells.lowered_chars (h : q.Respells q') : lowered q'.chars = lowered q.chars := by
  cases h with
  | word h => rw [chars, chars, lowered_append, lowered_append, h]
  | quoted h =>
      simp only [chars, lowered_cons, lowered_append, lowered_double, h]

theorem lowered_charsOf {qualifier qualifier' : Option Qualifier}
    (h : Option.Rel Respells qualifier qualifier') :
    lowered (charsOf qualifier') = lowered (charsOf qualifier) := by
  cases h with
  | none => rfl
  | some h => exact h.lowered_chars

end Qualifier

namespace Parts

variable {p p' : Parts}

/-- The same corners behind sheets in another case. -/
inductive Respells : Parts → Parts → Prop where
  | single {qualifier qualifier' : Option Qualifier} {corner : Corner}
      {isCell : corner.side = .cell} : Option.Rel Qualifier.Respells qualifier qualifier' →
      Respells (.single qualifier corner isCell) (.single qualifier' corner isCell)
  | pair {qualifier qualifier' again again' : Option Qualifier} {first second : Corner}
      {sameSide : second.side = first.side} {qualified : again.isSome → qualifier.isSome}
      {qualified' : again'.isSome → qualifier'.isSome} :
      Option.Rel Qualifier.Respells qualifier qualifier' →
      Option.Rel Qualifier.Respells again again' →
      Respells (.pair qualifier first again second sameSide qualified)
        (.pair qualifier' first again' second sameSide qualified')

theorem rel_symm {qualifier qualifier' : Option Qualifier}
    (h : Option.Rel Qualifier.Respells qualifier qualifier') :
    Option.Rel Qualifier.Respells qualifier' qualifier := by
  cases h with
  | none => exact .none
  | some h => exact .some h.symm

theorem Respells.symm (h : p.Respells p') : p'.Respells p := by
  cases h with
  | single h => exact .single (rel_symm h)
  | pair h hagain => exact .pair (rel_symm h) (rel_symm hagain)

theorem Respells.lowered_chars (h : p.Respells p') : lowered p'.chars = lowered p.chars := by
  cases h with
  | single h => simp only [chars, lowered_append, Qualifier.lowered_charsOf h]
  | pair h hagain =>
      simp only [chars, lowered_append, lowered_cons, Qualifier.lowered_charsOf h,
        Qualifier.lowered_charsOf hagain]

theorem Respells.qualifier (h : p.Respells p') :
    Option.Rel Qualifier.Respells p.qualifier p'.qualifier := by
  cases h with
  | single h => exact h
  | pair h _ => exact h

theorem Respells.kind (h : p.Respells p') : p'.kind = p.kind := by
  cases h with
  | single h | pair h _ => cases h <;> rfl

theorem Respells.corners (h : p.Respells p') : p'.corners = p.corners := by
  cases h with
  | single _ => rfl
  | pair _ _ => rfl

theorem notMem_of_rel {qualifier qualifier' : Option Qualifier} {d : Char}
    (hd : d.isAlpha = false) (h : Option.Rel Qualifier.Respells qualifier qualifier')
    (hmem : ∀ q ∈ qualifier, d ∉ q.name) : ∀ q ∈ qualifier', d ∉ q.name := by
  cases h with
  | none => rintro q ⟨⟩
  | some h =>
      rintro q ⟨⟩ hd'
      have hlowered := (mem_lowered hd).mpr hd'
      rw [h.lowered_name, mem_lowered hd] at hlowered
      exact hmem _ rfl hlowered

/-- Whether parts are readable shows in every case, but for a repeated sheet. -/
theorem Respells.readable (h : p.Respells p') (hread : p.Readable) (hsame : p'.SameSheets) :
    p'.Readable where
  sameSheets := hsame
  noColon := notMem_of_rel (by decide) h.qualifier hread.noColon
  oneMark := by
    have hone := hread.oneMark
    unfold OneMark at hone ⊢
    rwa [h.corners]

end Parts

/-! ## Texts -/

/-- The second text is the first one with the sheets of some references in another case. Both are
read token by token, as far as they differ. -/
inductive Respelled : List Char → List Char → Prop where
  | same (cs : List Char) : Respelled cs cs
  | keep {text rest rest' : List Char} {kind : TokenKind} :
      Token.lexeme (text ++ rest) = .ok (kind, text.length) → Respelled rest rest' →
      Respelled (text ++ rest) (text ++ rest')
  | reference {p p' : Parts} {rest rest' : List Char} :
      Token.lexeme (p.chars ++ rest) = .ok (p.kind, p.chars.length) → p.Respells p' →
      Respelled rest rest' → Respelled (p.chars ++ rest) (p'.chars ++ rest')

namespace Respelled

variable {cs cs' : List Char}

theorem lowered_eq (h : Respelled cs cs') : lowered cs' = lowered cs := by
  induction h with
  | same cs => rfl
  | keep _ _ ih => rw [lowered_append, lowered_append, ih]
  | reference _ hp _ ih => rw [lowered_append, lowered_append, hp.lowered_chars, ih]

variable {text rest rest' : List Char} {kind : TokenKind} {p p' : Parts}

theorem lexeme_keep (h : Token.lexeme (text ++ rest) = .ok (kind, text.length))
    (hrest : lowered rest' = lowered rest) :
    Token.lexeme (text ++ rest') = .ok (kind, text.length) := by
  rwa [← Token.lexeme_lowered, lowered_append, hrest, ← lowered_append, Token.lexeme_lowered]

theorem lexeme_reference (h : Token.lexeme (p.chars ++ rest) = .ok (p.kind, p.chars.length))
    (hp : p.Respells p') (hrest : lowered rest' = lowered rest) :
    Token.lexeme (p'.chars ++ rest') = .ok (p'.kind, p'.chars.length) := by
  have hlength : p'.chars.length = p.chars.length := by
    rw [← length_lowered, hp.lowered_chars, length_lowered]
  rwa [← Token.lexeme_lowered, lowered_append, hrest, hp.lowered_chars, ← lowered_append,
    Token.lexeme_lowered, hp.kind, hlength]

theorem symm (h : Respelled cs cs') : Respelled cs' cs := by
  induction h with
  | same cs => exact .same cs
  | keep hlexeme hrest ih => exact .keep (lexeme_keep hlexeme hrest.lowered_eq) ih
  | reference hlexeme hp hrest ih =>
      exact .reference (lexeme_reference hlexeme hp hrest.lowered_eq) hp.symm ih

/-- The text of one reference, where texts can start with it. -/
theorem ofParts (hstart : ∀ c ∈ p.chars.head?, StartsReference c) (hp : p.Respells p') :
    Respelled p.chars p'.chars := by
  have hlexeme : Token.lexeme (p.chars ++ []) = .ok (p.kind, p.chars.length) := by
    rw [List.append_nil, Token.lexeme_parts hstart]
  have h := reference hlexeme hp (.same [])
  rwa [List.append_nil, List.append_nil] at h

end Respelled

/-! ## Tokens -/

namespace Token

/-- The same token, or one of the same reference behind a sheet in another case. -/
inductive Respells : Token → Token → Prop where
  | same (token : Token) : Respells token token
  | reference {p p' : Parts} {position : Nat} : p.Respells p' →
      Respells ⟨p.kind, p.text, position⟩ ⟨p.kind, p'.text, position⟩

variable {token token' : Token} {tokens tokens' : List Token}

theorem Respells.kind (h : token.Respells token') : token'.kind = token.kind := by
  cases h with
  | same _ => rfl
  | reference _ => rfl

/-- Only references can be spelled in two ways. -/
theorem Respells.eq (h : token.Respells token')
    (hkind : token.kind ≠ .reference ∧ token.kind ≠ .sheetReference) : token' = token := by
  cases h with
  | same _ => rfl
  | @reference p p' position _ => exact absurd p.kind_eq (by simpa using hkind)

theorem respells_refl (tokens : List Token) : List.Forall₂ Respells tokens tokens :=
  List.forall₂_same.mpr fun token _ => .same token

/-- A lexeme at the front is the first token. -/
theorem ofCharsFrom_append {text rest : List Char} {kind : TokenKind}
    (h : lexeme (text ++ rest) = .ok (kind, text.length)) (position : Nat) :
    ofCharsFrom position (text ++ rest) =
      (ofCharsFrom (position + byteLength text) rest).map
        (⟨kind, String.ofList text, position⟩ :: ·) := by
  have hlands := lexeme_lands (text ++ rest)
  rw [h] at hlands
  obtain ⟨c, cs, rfl⟩ := List.exists_cons_of_length_pos hlands.1
  rw [List.cons_append] at h ⊢
  rw [ofCharsFrom]
  simp [h]

end Token

open Token Respelled in
/-- Where the first text has tokens, the second one has the same, or of the same references. -/
theorem Respelled.exists_tokens {cs cs' : List Char} (h : Respelled cs cs') {position : Nat}
    {tokens : List Token} (htokens : ofCharsFrom position cs = .ok tokens) :
    ∃ tokens', ofCharsFrom position cs' = .ok tokens' ∧ List.Forall₂ Respells tokens tokens' := by
  induction h generalizing position tokens with
  | same cs => exact ⟨tokens, htokens, respells_refl tokens⟩
  | keep hlexeme hrest ih =>
      rw [ofCharsFrom_append hlexeme, map_eq_ok] at htokens
      obtain ⟨others, hothers, rfl⟩ := htokens
      obtain ⟨others', hothers', hall⟩ := ih hothers
      refine ⟨_, ?_, .cons (.same _) hall⟩
      rw [ofCharsFrom_append (lexeme_keep hlexeme hrest.lowered_eq), hothers']
      rfl
  | @reference p p' rest rest' hlexeme hp hrest ih =>
      rw [ofCharsFrom_append hlexeme, map_eq_ok] at htokens
      obtain ⟨others, hothers, rfl⟩ := htokens
      obtain ⟨others', hothers', hall⟩ := ih hothers
      have hlength : byteLength p'.chars = byteLength p.chars := by
        rw [← byteLength_lowered, hp.lowered_chars, byteLength_lowered]
      refine ⟨_, ?_, .cons (.reference hp) hall⟩
      rw [ofCharsFrom_append (lexeme_reference hlexeme hp hrest.lowered_eq), hlength, hothers',
        hp.kind]
      rfl

/-! ## Expressions -/

namespace Expr

/-- The name of a sheet in lower case. -/
def foldedName (name : String) : String := String.ofList (lowered name.toList)

mutual

/-- The expression with the sheets in front of its references in lower case. -/
def folded : Expr → Expr
  | .literal s => .literal s
  | .table t => .table t
  | .cell sheet coord => .cell (sheet.map foldedName) coord
  | .area sheet corners => .area (sheet.map foldedName) corners
  | .name word => .name word
  | .unary op e => .unary op e.folded
  | .binary op l r => .binary op l.folded r.folded
  | .call function arguments => .call function (foldedOf arguments)
  | .union items => .union (foldedOf items)

def foldedOf : List Expr → List Expr
  | [] => []
  | e :: es => e.folded :: foldedOf es

end

end Expr

open Formula.Expr in
theorem Parts.Respells.folded_expr {p p' : Parts} (h : p.Respells p') :
    p'.expr.folded = p.expr.folded := by
  have hsheet {qualifier qualifier' : Option Qualifier}
      (h : Option.Rel Qualifier.Respells qualifier qualifier') :
      (qualifier'.map Qualifier.sheet).map foldedName =
        (qualifier.map Qualifier.sheet).map foldedName := by
    cases h with
    | none => rfl
    | some h =>
        simp only [Option.map_some, foldedName, Qualifier.sheet, String.toList_ofList,
          h.lowered_name]
  cases h with
  | single h => simp only [Parts.expr, folded, hsheet h]
  | pair h _ => simp only [Parts.expr, folded, hsheet h]

/-! ## Derivations -/

namespace Token

variable {token token' : Token} {ts us ts' : List Token} {e : Expr}

/-- A reference that repeats its sheet repeats the spelling. -/
def RepeatsAlike (token : Token) : Prop :=
  token.kind = .reference ∨ token.kind = .sheetReference →
    ∀ p : Parts, token.text = p.text → p.SameSheets

theorem repeatsAlike_of_referenceOf (h : Grammar.referenceOf token = .ok e) :
    token.RepeatsAlike := by
  intro _ p htext
  exact ((Parts.referenceOf_chars htext).mp h).1.sameSheets

theorem repeatsAlike_of_kind (h : token.kind ≠ .reference ∧ token.kind ≠ .sheetReference) :
    token.RepeatsAlike :=
  fun hkind => absurd hkind (by simp [h])

theorem repeatsAlike_of_isOperator {symbol : String} (h : token.isOperator symbol) :
    token.RepeatsAlike :=
  repeatsAlike_of_kind (by simp [(isOperator_iff.mp h).1])

theorem repeatsAlike_of_isSeparator {symbol : String} (h : token.isSeparator symbol) :
    token.RepeatsAlike :=
  repeatsAlike_of_kind (by simp [(isSeparator_iff.mp h).1])

theorem kind_of_constantOf? {s : Except Malformed Scalar}
    (h : Grammar.constantOf? token = some s) :
    token.kind ≠ .reference ∧ token.kind ≠ .sheetReference := by
  constructor
  · intro hkind
    simp [Grammar.constantOf?, hkind] at h
  · intro hkind
    simp [Grammar.constantOf?, hkind] at h

namespace Respells

theorem isOperator (h : token.Respells token') {symbol : String}
    (hsign : token.isOperator symbol) : token'.isOperator symbol := by
  have hkind := (isOperator_iff.mp hsign).1
  rwa [h.eq (by simp [hkind])]

theorem isSeparator (h : token.Respells token') {symbol : String}
    (hmark : token.isSeparator symbol) : token'.isSeparator symbol := by
  have hkind := (isSeparator_iff.mp hmark).1
  rwa [h.eq (by simp [hkind])]

theorem atom (h : token.Respells token') (halike : token'.RepeatsAlike)
    (he : Atom token e) : ∃ e', Atom token' e' ∧ e'.folded = e.folded := by
  cases h with
  | same _ => exact ⟨e, he, rfl⟩
  | @reference p p' position hp =>
      have hkind := p.kind_eq
      have hnot : p.kind ≠ .name := by obtain h | h := hkind <;> rw [h] <;> decide
      cases he with
      | constant h => exact absurd hkind (by simpa using kind_of_constantOf? h)
      | name h => exact absurd h hnot
      | reference _ h =>
          obtain ⟨hread, rfl⟩ := (Parts.referenceOf_chars rfl).mp h
          have hread' := hp.readable hread (halike hkind p' rfl)
          exact ⟨p'.expr, .reference hkind ((Parts.referenceOf_chars rfl).mpr ⟨hread', rfl⟩),
            hp.folded_expr⟩

theorem exists_cons (h : List.Forall₂ Respells (token :: ts) ts') :
    ∃ token' rest, ts' = token' :: rest ∧ token.Respells token' ∧
      List.Forall₂ Respells ts rest := by
  cases h with
  | cons htoken hrest => exact ⟨_, _, rfl, htoken, hrest⟩

theorem exists_singleton (h : List.Forall₂ Respells [token] ts') :
    ∃ token', token.Respells token' ∧ ts' = [token'] := by
  obtain ⟨token', rest, rfl, htoken, hrest⟩ := exists_cons h
  cases hrest
  exact ⟨token', htoken, rfl⟩

theorem exists_append (h : List.Forall₂ Respells (ts ++ us) ts') :
    ∃ front back, ts' = front ++ back ∧ List.Forall₂ Respells ts front ∧
      List.Forall₂ Respells us back := by
  induction ts generalizing ts' with
  | nil => exact ⟨[], ts', rfl, .nil, h⟩
  | cons t ts ih =>
      obtain ⟨t', rest, rfl, ht, hrest⟩ := exists_cons h
      obtain ⟨front, back, rfl, hfront, hback⟩ := ih hrest
      exact ⟨t' :: front, back, rfl, .cons ht hfront, hback⟩

theorem exists_joined {mark : Token} (h : List.Forall₂ Respells (ts ++ mark :: us) ts') :
    ∃ front mark' back, ts' = front ++ mark' :: back ∧ List.Forall₂ Respells ts front ∧
      mark.Respells mark' ∧ List.Forall₂ Respells us back := by
  obtain ⟨front, _, rfl, hfront, hrest⟩ := exists_append h
  obtain ⟨mark', back, rfl, hmark, hback⟩ := exists_cons hrest
  exact ⟨front, mark', back, rfl, hfront, hmark, hback⟩

theorem exists_enclosed {opening closing : Token}
    (h : List.Forall₂ Respells (opening :: (ts ++ [closing])) ts') :
    ∃ opening' inner closing', ts' = opening' :: (inner ++ [closing']) ∧
      opening'.kind = opening.kind ∧ List.Forall₂ Respells ts inner ∧
      closing'.kind = closing.kind := by
  obtain ⟨opening', _, rfl, hopening, hrest⟩ := exists_cons h
  obtain ⟨inner, closing', _, rfl, hinner, hclosing, hnil⟩ := exists_joined hrest
  cases hnil
  exact ⟨opening', inner, closing', rfl, hopening.kind, hinner, hclosing.kind⟩

/-- There is one way to write a constant of a table. -/
theorem constant {s : Scalar} (hs : Constant ts s) (h : List.Forall₂ Respells ts ts') :
    ts' = ts := by
  cases hs with
  | plain hs =>
      obtain ⟨token', htoken, rfl⟩ := exists_singleton h
      rw [htoken.eq (kind_of_constantOf? hs)]
  | plus hsign hkind _ | minus hsign hkind _ =>
      obtain ⟨sign', _, rfl, hsign', hrest⟩ := exists_cons h
      obtain ⟨token', htoken, rfl⟩ := exists_singleton hrest
      rw [hsign'.eq (by simp [(isOperator_iff.mp hsign).1]), htoken.eq (by simp [hkind])]

/-- Parts of a mark are written in one way if each of them is. -/
theorem separated {α : Type} {symbol : String} {Part : List Token → α → Prop} {as : List α}
    (hpart : ∀ ts a, Part ts a → ∀ ts', List.Forall₂ Respells ts ts' → ts' = ts)
    (has : Separated symbol Part ts as) (h : List.Forall₂ Respells ts ts') : ts' = ts := by
  induction has generalizing ts' with
  | single ha => exact hpart _ _ ha _ h
  | cons ha hmark _ ih =>
      obtain ⟨front, mark', back, rfl, hfront, hmark', hback⟩ := exists_joined h
      rw [hpart _ _ ha _ hfront, ih hback, hmark'.eq (by simp [(isSeparator_iff.mp hmark).1])]

theorem tabular {t : Table} (ht : Tabular ts t) (h : List.Forall₂ Respells ts ts') :
    ts' = ts := by
  cases ht with
  | intro hrows _ =>
      exact separated (fun _ _ hrow _ h => separated (fun _ _ hs _ h => constant hs h) hrow h)
        hrows h

end Respells

end Token

open Token

mutual

/-- Tokens of the same references in another case derive the same phrase, if references that
repeat a sheet repeat its spelling. -/
theorem Derives.respell {p : Phrase} {ts : List Token} {e : Expr} :
    Derives p ts e → ∀ {ts'}, List.Forall₂ Respells ts ts' → (∀ token ∈ ts', token.RepeatsAlike) →
      ∃ e', Derives p ts' e' ∧ e'.folded = e.folded
  | .tighter hpq he, ts', h, halike => by
      obtain ⟨e', he', hfolded⟩ := he.respell h halike
      exact ⟨e', .tighter hpq he', hfolded⟩
  | .binary hpq hop hl hsign hr, ts', h, halike => by
      obtain ⟨front, sign', back, rfl, hfront, hsign', hback⟩ := Respells.exists_joined h
      simp only [List.forall_mem_append, List.forall_mem_cons] at halike
      obtain ⟨l', hl', hleft⟩ := hl.respell hfront halike.1
      obtain ⟨r', hr', hright⟩ := hr.respell hback halike.2.2
      refine ⟨.binary _ l' r', .binary hpq hop hl' (hsign'.isOperator hsign) hr', ?_⟩
      rw [Expr.folded, Expr.folded, hleft, hright]
  | .percent he hsign, ts', h, halike => by
      obtain ⟨front, _, rfl, hfront, hrest⟩ := Respells.exists_append h
      obtain ⟨sign', hsign', rfl⟩ := Respells.exists_singleton hrest
      obtain ⟨e', he', hfolded⟩ := he.respell hfront (List.forall_mem_append.mp halike).1
      refine ⟨.unary .percent e', .percent he' (hsign'.isOperator hsign), ?_⟩
      rw [Expr.folded, Expr.folded, hfolded]
  | .minus hsign he, ts', h, halike => by
      obtain ⟨sign', back, rfl, hsign', hback⟩ := Respells.exists_cons h
      obtain ⟨e', he', hfolded⟩ := he.respell hback (List.forall_mem_cons.mp halike).2
      refine ⟨.unary .negate e', .minus (hsign'.isOperator hsign) he', ?_⟩
      rw [Expr.folded, Expr.folded, hfolded]
  | .plus hsign he, ts', h, halike => by
      obtain ⟨sign', back, rfl, hsign', hback⟩ := Respells.exists_cons h
      obtain ⟨e', he', hfolded⟩ := he.respell hback (List.forall_mem_cons.mp halike).2
      exact ⟨e', .plus (hsign'.isOperator hsign) he', hfolded⟩
  | .atom he, ts', h, halike => by
      obtain ⟨token', htoken, rfl⟩ := Respells.exists_singleton h
      -- only a reference is spelled in another way, and what it is folded to says nothing of case
      obtain ⟨e', he', hfolded⟩ := htoken.atom (halike _ List.mem_cons_self) he
      exact ⟨e', .atom he', hfolded⟩
  | .noArguments hfunction hopening hclosing, ts', h, halike => by
      obtain ⟨function', _, rfl, hfunction', hrest⟩ := Respells.exists_cons h
      obtain ⟨opening', _, rfl, hopening', hrest⟩ := Respells.exists_cons hrest
      obtain ⟨closing', hclosing', rfl⟩ := Respells.exists_singleton hrest
      rw [hfunction'.eq (by simp [hfunction])]
      exact ⟨_, .noArguments hfunction (hopening'.kind.trans hopening)
        (hclosing'.kind.trans hclosing), rfl⟩
  | .call hfunction hopening hes hclosing, ts', h, halike => by
      obtain ⟨function', _, rfl, hfunction', hrest⟩ := Respells.exists_cons h
      obtain ⟨opening', inner, closing', rfl, hopening', hinner, hclosing'⟩ :=
        Respells.exists_enclosed hrest
      simp only [List.forall_mem_append, List.forall_mem_cons] at halike
      obtain ⟨es', hes', hfolded⟩ := separated_respell hes hinner halike.2.2.1
      rw [hfunction'.eq (by simp [hfunction])]
      refine ⟨_, .call hfunction (hopening'.trans hopening) hes' (hclosing'.trans hclosing), ?_⟩
      rw [Expr.folded, Expr.folded, hfolded]
  | .group hopening he hclosing, ts', h, halike => by
      obtain ⟨opening', inner, closing', rfl, hopening', hinner, hclosing'⟩ :=
        Respells.exists_enclosed h
      simp only [List.forall_mem_append, List.forall_mem_cons] at halike
      obtain ⟨e', he', hfolded⟩ := he.respell hinner halike.2.1
      exact ⟨e', .group (hopening'.trans hopening) he' (hclosing'.trans hclosing), hfolded⟩
  | .union hopening hes hclosing, ts', h, halike => by
      obtain ⟨opening', inner, closing', rfl, hopening', hinner, hclosing'⟩ :=
        Respells.exists_enclosed h
      simp only [List.forall_mem_append, List.forall_mem_cons] at halike
      obtain ⟨es', hes', hfolded⟩ := separated_respell hes hinner halike.2.1
      match es', hfolded with
      | [], hfolded | [_], hfolded => simp [Expr.foldedOf] at hfolded
      | first' :: second' :: others', hfolded =>
          refine ⟨_, .union (hopening'.trans hopening) hes' (hclosing'.trans hclosing), ?_⟩
          rw [Expr.folded, Expr.folded, hfolded]
  | .table hopening ht hclosing, ts', h, halike => by
      obtain ⟨opening', inner, closing', rfl, hopening', hinner, hclosing'⟩ :=
        Respells.exists_enclosed h
      rw [Respells.tabular ht hinner]
      exact ⟨_, .table (hopening'.trans hopening) ht (hclosing'.trans hclosing), rfl⟩

theorem separated_respell {ts : List Token} {es : List Expr} :
    Separated "," (Derives .comparison) ts es → ∀ {ts'}, List.Forall₂ Respells ts ts' →
      (∀ token ∈ ts', token.RepeatsAlike) →
      ∃ es', Separated "," (Derives .comparison) ts' es' ∧ Expr.foldedOf es' = Expr.foldedOf es
  | .single he, ts', h, halike => by
      obtain ⟨e', he', hfolded⟩ := he.respell h halike
      exact ⟨[e'], .single he', by simp only [Expr.foldedOf, hfolded]⟩
  | .cons he hmark hes, ts', h, halike => by
      obtain ⟨front, mark', back, rfl, hfront, hmark', hback⟩ := Respells.exists_joined h
      simp only [List.forall_mem_append, List.forall_mem_cons] at halike
      obtain ⟨e', he', hfolded⟩ := he.respell hfront halike.1
      obtain ⟨es', hes', hfoldeds⟩ := separated_respell hes hback halike.2.2
      refine ⟨e' :: es', .cons he' (hmark'.isSeparator hmark) hes', ?_⟩
      rw [Expr.foldedOf, Expr.foldedOf, hfolded, hfoldeds]

end

/-! ## Repeated sheets -/

namespace Token

theorem repeatsAlike_of_atom (h : Atom token e) : token.RepeatsAlike := by
  cases h with
  | constant h => exact repeatsAlike_of_kind (kind_of_constantOf? h)
  | reference _ h => exact repeatsAlike_of_referenceOf h
  | name hkind => exact repeatsAlike_of_kind (by simp [hkind])

theorem repeatsAlike_of_constant {s : Scalar} (h : Constant ts s) :
    ∀ token ∈ ts, token.RepeatsAlike := by
  cases h with
  | plain h =>
      rw [List.forall_mem_singleton]
      exact repeatsAlike_of_kind (kind_of_constantOf? h)
  | plus hsign hkind _ | minus hsign hkind _ =>
      rw [List.forall_mem_cons, List.forall_mem_singleton]
      exact ⟨repeatsAlike_of_isOperator hsign, repeatsAlike_of_kind (by simp [hkind])⟩

theorem repeatsAlike_of_separated {α : Type} {symbol : String} {Part : List Token → α → Prop}
    {as : List α} (hpart : ∀ ts a, Part ts a → ∀ token ∈ ts, token.RepeatsAlike)
    (h : Separated symbol Part ts as) : ∀ token ∈ ts, token.RepeatsAlike := by
  induction h with
  | single ha => exact hpart _ _ ha
  | cons ha hmark _ ih =>
      rw [List.forall_mem_append, List.forall_mem_cons]
      exact ⟨hpart _ _ ha, repeatsAlike_of_isSeparator hmark, ih⟩

theorem repeatsAlike_of_tabular {t : Table} (h : Tabular ts t) :
    ∀ token ∈ ts, token.RepeatsAlike := by
  cases h with
  | intro hrows _ =>
      exact repeatsAlike_of_separated (fun _ _ hrow =>
        repeatsAlike_of_separated (fun _ _ hs => repeatsAlike_of_constant hs) hrow) hrows

/-- Tokens repeat alike if those between the first and the last one do. -/
theorem repeatsAlike_enclosed {opening closing : Token}
    (hopening : opening.kind ≠ .reference ∧ opening.kind ≠ .sheetReference)
    (hclosing : closing.kind ≠ .reference ∧ closing.kind ≠ .sheetReference)
    (h : ∀ token ∈ ts, token.RepeatsAlike) :
    ∀ token ∈ opening :: (ts ++ [closing]), token.RepeatsAlike := by
  rw [List.forall_mem_cons, List.forall_mem_append, List.forall_mem_singleton]
  exact ⟨repeatsAlike_of_kind hopening, h, repeatsAlike_of_kind hclosing⟩

end Token

mutual

/-- Every reference of a phrase repeats its sheet as it spells it, if it repeats it. -/
theorem Derives.repeatsAlike {p : Phrase} {ts : List Token} {e : Expr} :
    Derives p ts e → ∀ token ∈ ts, token.RepeatsAlike
  | .tighter _ he => he.repeatsAlike
  | .binary _ _ hl hsign hr => by
      rw [List.forall_mem_append, List.forall_mem_cons]
      exact ⟨hl.repeatsAlike, repeatsAlike_of_isOperator hsign, hr.repeatsAlike⟩
  | .percent he hsign => by
      rw [List.forall_mem_append, List.forall_mem_singleton]
      exact ⟨he.repeatsAlike, repeatsAlike_of_isOperator hsign⟩
  | .minus hsign he | .plus hsign he => by
      rw [List.forall_mem_cons]
      exact ⟨repeatsAlike_of_isOperator hsign, he.repeatsAlike⟩
  | .atom he => by
      rw [List.forall_mem_singleton]
      exact repeatsAlike_of_atom he
  | .noArguments hfunction hopening hclosing => by
      rw [List.forall_mem_cons, List.forall_mem_cons, List.forall_mem_singleton]
      exact ⟨repeatsAlike_of_kind (by simp [hfunction]), repeatsAlike_of_kind (by simp [hopening]),
        repeatsAlike_of_kind (by simp [hclosing])⟩
  | .call hfunction hopening hes hclosing => by
      rw [List.forall_mem_cons]
      exact ⟨repeatsAlike_of_kind (by simp [hfunction]), repeatsAlike_enclosed (by simp [hopening])
        (by simp [hclosing]) (separated_repeatsAlike hes)⟩
  | .group hopening he hclosing =>
      repeatsAlike_enclosed (by simp [hopening]) (by simp [hclosing]) he.repeatsAlike
  | .union hopening hes hclosing =>
      repeatsAlike_enclosed (by simp [hopening]) (by simp [hclosing]) (separated_repeatsAlike hes)
  | .table hopening ht hclosing =>
      repeatsAlike_enclosed (by simp [hopening]) (by simp [hclosing]) (repeatsAlike_of_tabular ht)

theorem separated_repeatsAlike {ts : List Token} {es : List Expr} :
    Separated "," (Derives .comparison) ts es → ∀ token ∈ ts, token.RepeatsAlike
  | .single he => he.repeatsAlike
  | .cons he hmark hes => by
      rw [List.forall_mem_append, List.forall_mem_cons]
      exact ⟨he.repeatsAlike, repeatsAlike_of_isSeparator hmark, separated_repeatsAlike hes⟩

end

/-! ## Formulas -/

/-- Every reference of the text that repeats its sheet repeats the spelling. -/
def RepeatsAlike (cs : List Char) : Prop :=
  ∀ tokens, ofCharsFrom 0 cs = .ok tokens → ∀ token ∈ tokens, token.RepeatsAlike

/-- A text that is read repeats sheets as it spells them. -/
theorem repeatsAlike_of_ofBody {cs : List Char} {e : Expr} (he : Expr.ofBody cs = .ok e) :
    RepeatsAlike cs := by
  intro tokens htokens token htoken
  simp only [Expr.ofBody, bind_eq_ok, htokens, Except.ok.injEq, exists_eq_left'] at he
  by_cases hblank : token.kind = .blank
  · exact repeatsAlike_of_kind (by simp [hblank])
  · exact (Expr.ofTokens_eq_ok.mp he).repeatsAlike token
      (List.mem_filter.mpr ⟨htoken, by simpa using hblank⟩)

theorem filter_respells {tokens tokens' : List Token} (h : List.Forall₂ Respells tokens tokens') :
    List.Forall₂ Respells (tokens.filter (·.kind != .blank))
      (tokens'.filter (·.kind != .blank)) :=
  List.rel_filter (fun _ _ htoken => by simp [htoken.kind]) h

/-- A text whose references repeat sheets as they spell them is read as the first one is. -/
theorem Respelled.exists_expr {cs cs' : List Char} {e : Expr} (h : Respelled cs cs')
    (halike : RepeatsAlike cs') (he : Expr.ofBody cs = .ok e) :
    ∃ e', Expr.ofBody cs' = .ok e' ∧ e'.folded = e.folded := by
  simp only [Expr.ofBody, bind_eq_ok] at he ⊢
  obtain ⟨tokens, htokens, he⟩ := he
  obtain ⟨tokens', htokens', hall⟩ := h.exists_tokens htokens
  obtain ⟨e', he', hfolded⟩ := (Expr.ofTokens_eq_ok.mp he).respell (filter_respells hall)
    fun token htoken => halike tokens' htokens' token (List.mem_of_mem_filter htoken)
  exact ⟨e', ⟨tokens', htokens', Expr.ofTokens_eq_ok.mpr he'⟩, hfolded⟩

/-- Where a text is read, the respelled one is read if and only if it repeats sheets as it spells
them. -/
theorem Respelled.read_iff {cs cs' : List Char} {e : Expr} (h : Respelled cs cs')
    (he : Expr.ofBody cs = .ok e) : (∃ e', Expr.ofBody cs' = .ok e') ↔ RepeatsAlike cs' := by
  constructor
  · rintro ⟨e', he'⟩
    exact repeatsAlike_of_ofBody he'
  · intro halike
    obtain ⟨e', he', -⟩ := h.exists_expr halike he
    exact ⟨e', he'⟩

theorem Respelled.folded_eq {cs cs' : List Char} {e e' : Expr} (h : Respelled cs cs')
    (he : Expr.ofBody cs = .ok e) (he' : Expr.ofBody cs' = .ok e') : e'.folded = e.folded := by
  obtain ⟨f, hf, hfolded⟩ := h.exists_expr (repeatsAlike_of_ofBody he') he
  obtain rfl : e' = f := Except.ok.inj (he'.symm.trans hf)
  exact hfolded

end Formula

end Spreadsheet
