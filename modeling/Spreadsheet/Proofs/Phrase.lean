-- SUMMARY: The grammar of formulas as rules that derive an expression from tokens.
import Spreadsheet.Formula.Grammar

/-!
# Phrases

The rules of the grammar, without an order in which tokens are read. A phrase is made of tighter
phrases with its operators between them, down to operands, and what is derived from tokens is the
expression they stand for.
-/

namespace Spreadsheet.Formula

open Text

/-- One or more parts with a separator between any two. -/
inductive Separated {α : Type} (symbol : String) (Part : List Token → α → Prop) :
    List Token → List α → Prop where
  | single {ts : List Token} {a : α} (ha : Part ts a) : Separated symbol Part ts [a]
  | cons {ts us : List Token} {mark : Token} {a : α} {as : List α} (ha : Part ts a)
      (hmark : mark.isSeparator symbol) (has : Separated symbol Part us as) :
      Separated symbol Part (ts ++ mark :: us) (a :: as)

theorem Separated.part {α : Type} {symbol : String} {Part : List Token → α → Prop}
    {ts : List Token} {a : α} (h : Separated symbol Part ts [a]) : Part ts a := by
  cases h with
  | single ha => exact ha
  | cons _ _ has => cases has

/-! ## Operands of constants -/

/-- The tokens are a constant of a table: a number, which can have a sign, or one token of text, a
boolean or an error value. -/
inductive Constant : List Token → Scalar → Prop where
  | plain {token : Token} {s : Scalar} (h : Grammar.constantOf? token = some (.ok s)) :
      Constant [token] s
  | plus {sign token : Token} {x : Float} (hsign : sign.isOperator "+")
      (hkind : token.kind = .number)
      (h : Grammar.constantOf? token = some (.ok (.number x))) :
      Constant [sign, token] (.number x)
  | minus {sign token : Token} {x : Float} (hsign : sign.isOperator "-")
      (hkind : token.kind = .number)
      (h : Grammar.constantOf? token = some (.ok (.number x))) :
      Constant [sign, token] (.number (-x))

/-- The tokens between two braces are a table, all of its rows being of one length. -/
inductive Tabular : List Token → Table → Prop where
  | intro {ts : List Token} {rows : List (List Scalar)} {width : Nat}
      (hrows : Separated ";" (Separated "," Constant) ts rows)
      (hwidth : ∀ row ∈ rows, row.length = width) :
      Tabular ts ⟨rows.length, width, rows.flatten.toArray⟩

/-- The token is an operand by itself. -/
inductive Atom : Token → Expr → Prop where
  | constant {token : Token} {s : Scalar} (h : Grammar.constantOf? token = some (.ok s)) :
      Atom token (.literal s)
  | reference {token : Token} {e : Expr}
      (hkind : token.kind = .reference ∨ token.kind = .sheetReference)
      (h : Grammar.referenceOf token = .ok e) : Atom token e
  | name {token : Token} (hkind : token.kind = .name) : Atom token (.name token.text)

/-! ## Expressions -/

/-- The kinds of phrases, the loosest first. -/
inductive Phrase where
  | comparison
  | joined
  | sum
  | product
  | power
  | percent
  | signed
  | range
  | operand
  deriving DecidableEq

namespace Phrase

/-- What the parts of a phrase are. -/
def tighter? : Phrase → Option Phrase
  | comparison => some joined
  | joined => some sum
  | sum => some product
  | product => some power
  | power => some percent
  | percent => some signed
  | signed => some range
  | range => some operand
  | operand => none

/-- What can stand between the parts of a phrase. -/
def operators : Phrase → List BinaryOp
  | comparison =>
    [.comparison .equal, .comparison .notEqual, .comparison .less, .comparison .lessEqual,
      .comparison .greater, .comparison .greaterEqual]
  | joined => [.concat]
  | sum => [.arithmetic .add, .arithmetic .subtract]
  | product => [.arithmetic .multiply, .arithmetic .divide]
  | power => [.arithmetic .power]
  | range => [.range]
  | percent | signed | operand => []

end Phrase

/-- The tokens are a phrase, and the expression is what they stand for. -/
inductive Derives : Phrase → List Token → Expr → Prop where
  | tighter {p q : Phrase} {ts : List Token} {e : Expr} (hpq : p.tighter? = some q)
      (he : Derives q ts e) : Derives p ts e
  /-- The left part can have operators of the same phrase, the right part cannot. -/
  | binary {p q : Phrase} {op : BinaryOp} {ts us : List Token} {sign : Token} {l r : Expr}
      (hpq : p.tighter? = some q) (hop : op ∈ p.operators) (hl : Derives p ts l)
      (hsign : sign.isOperator op.symbol) (hr : Derives q us r) :
      Derives p (ts ++ sign :: us) (.binary op l r)
  | percent {ts : List Token} {sign : Token} {e : Expr} (he : Derives .percent ts e)
      (hsign : sign.isOperator "%") : Derives .percent (ts ++ [sign]) (.unary .percent e)
  | minus {sign : Token} {ts : List Token} {e : Expr} (hsign : sign.isOperator "-")
      (he : Derives .signed ts e) : Derives .signed (sign :: ts) (.unary .negate e)
  | plus {sign : Token} {ts : List Token} {e : Expr} (hsign : sign.isOperator "+")
      (he : Derives .signed ts e) : Derives .signed (sign :: ts) e
  | atom {token : Token} {e : Expr} (he : Atom token e) : Derives .operand [token] e
  | noArguments {function opening closing : Token} (hfunction : function.kind = .function)
      (hopening : opening.kind = .openParen) (hclosing : closing.kind = .closeParen) :
      Derives .operand [function, opening, closing] (.call (upper function.text) [])
  | call {function opening closing : Token} {ts : List Token} {es : List Expr}
      (hfunction : function.kind = .function) (hopening : opening.kind = .openParen)
      (hes : Separated "," (Derives .comparison) ts es) (hclosing : closing.kind = .closeParen) :
      Derives .operand (function :: opening :: (ts ++ [closing])) (.call (upper function.text) es)
  | group {opening closing : Token} {ts : List Token} {e : Expr}
      (hopening : opening.kind = .openParen) (he : Derives .comparison ts e)
      (hclosing : closing.kind = .closeParen) : Derives .operand (opening :: (ts ++ [closing])) e
  | union {opening closing : Token} {ts : List Token} {first second : Expr} {others : List Expr}
      (hopening : opening.kind = .openParen)
      (hes : Separated "," (Derives .comparison) ts (first :: second :: others))
      (hclosing : closing.kind = .closeParen) :
      Derives .operand (opening :: (ts ++ [closing])) (.union (first :: second :: others))
  | table {opening closing : Token} {ts : List Token} {t : Table}
      (hopening : opening.kind = .openBrace) (ht : Tabular ts t)
      (hclosing : closing.kind = .closeBrace) :
      Derives .operand (opening :: (ts ++ [closing])) (.table t)

/-! ## Operators and the phrases they belong to -/

variable {token : Token} {p q : Phrase} {op : BinaryOp} {symbol : String} {ts rest : List Token}

namespace Token

theorem isOperator_iff : token.isOperator symbol ↔ token.kind = .operator ∧ token.text = symbol := by
  simp [isOperator]

theorem isSeparator_iff :
    token.isSeparator symbol ↔ token.kind = .separator ∧ token.text = symbol := by
  simp [isSeparator]

theorem isOperator_eq_false (h : token.kind ≠ .operator) : token.isOperator symbol = false :=
  Bool.eq_false_iff.mpr fun htoken => h (isOperator_iff.mp htoken).1

theorem isSeparator_eq_false (h : token.kind ≠ .separator) : token.isSeparator symbol = false :=
  Bool.eq_false_iff.mpr fun htoken => h (isSeparator_iff.mp htoken).1

/-- A token is one operator only. -/
theorem isOperator_eq_false_of_ne {symbol' : String} (h : token.isOperator symbol)
    (hne : symbol ≠ symbol') : token.isOperator symbol' = false :=
  Bool.eq_false_iff.mpr fun h' => hne ((isOperator_iff.mp h).2.symm.trans (isOperator_iff.mp h').2)

theorem isSeparator_eq_false_of_ne {symbol' : String} (h : token.isSeparator symbol)
    (hne : symbol ≠ symbol') : token.isSeparator symbol' = false :=
  Bool.eq_false_iff.mpr fun h' =>
    hne ((isSeparator_iff.mp h).2.symm.trans (isSeparator_iff.mp h').2)

end Token

namespace Phrase

/-- The number of a phrase, tighter phrases having the larger ones. -/
def rank : Phrase → Nat
  | comparison => 0
  | joined => 1
  | sum => 2
  | product => 3
  | power => 4
  | percent => 5
  | signed => 6
  | range => 7
  | operand => 8

theorem rank_lt (p : Phrase) : p.rank < 9 := by cases p <;> decide

theorem rank_of_tighter? (h : p.tighter? = some q) : q.rank = p.rank + 1 := by
  cases p <;> cases h <;> rfl

/-- The operators that a phrase can go on with. -/
def marks : Phrase → List String
  | percent => ["%"]
  | p => p.operators.map BinaryOp.symbol

theorem symbol_mem_marks (h : op ∈ p.operators) : op.symbol ∈ p.marks := by
  cases p <;> first | exact List.mem_map_of_mem h | cases h

/-- No two operators of a phrase are written the same. -/
theorem eq_of_symbol_eq {op op' : BinaryOp} (hop : op ∈ p.operators) (hop' : op' ∈ p.operators)
    (h : op.symbol = op'.symbol) : op = op' := by
  have hall : ∀ op ∈ p.operators, ∀ op' ∈ p.operators, op.symbol = op'.symbol → op = op' := by
    cases p <;> decide
  exact hall op hop op' hop' h

/-- An operator belongs to one kind of phrase. -/
theorem eq_of_mem_marks (hp : symbol ∈ p.marks) (hq : symbol ∈ q.marks) : p = q := by
  have hall : ∀ p q : Phrase, ∀ symbol ∈ p.marks, symbol ∈ q.marks → p = q := by
    intro p q
    cases p <;> cases q <;> decide
  exact hall p q symbol hp hq

/-- The token is no operator that the phrase can go on with. -/
def EndsAt (p : Phrase) (token : Token) : Prop := token.kind = .operator → token.text ∉ p.marks

/-- At the front of the tokens, all phrases tighter than `p` have come to their end. -/
def Stops (p : Phrase) (rest : List Token) : Prop :=
  ∀ q : Phrase, p.rank < q.rank → ∀ token ∈ rest.head?, q.EndsAt token

theorem Stops.mono (h : p.Stops rest) (hpq : p.rank ≤ q.rank) : q.Stops rest :=
  fun r hr => h r (Nat.lt_of_le_of_lt hpq hr)

theorem endsAt_of_kind (h : token.kind ≠ .operator) : p.EndsAt token :=
  fun hkind => absurd hkind h

theorem stops_nil : p.Stops [] := fun _ _ _ htoken => by cases htoken

theorem stops_of_kind (h : token.kind ≠ .operator) : p.Stops (token :: rest) := by
  rintro q - token ⟨⟩
  exact endsAt_of_kind h

/-- A phrase can go on where its tighter phrases have come to their end. -/
theorem stops_of_isOperator (htoken : token.isOperator symbol) (hsymbol : symbol ∈ p.marks) :
    p.Stops (token :: rest) := by
  rintro q hq token ⟨⟩ - hmem
  rw [(Token.isOperator_iff.mp htoken).2] at hmem
  exact absurd hq (eq_of_mem_marks hsymbol hmem ▸ Nat.lt_irrefl _)

end Phrase

/-! ## First tokens -/

namespace Atom

variable {e : Expr}

theorem kind_ne (h : Atom token e) :
    token.kind ≠ .operator ∧ token.kind ≠ .separator ∧ token.kind ≠ .closeParen := by
  cases h with
  | constant h =>
      unfold Grammar.constantOf? at h
      split at h <;> simp_all
  | reference hkind h => obtain hkind | hkind := hkind <;> simp [hkind]
  | name hkind => simp [hkind]

end Atom

namespace Derives

/-- An operand by itself is an expression. -/
theorem ofOperand {e : Expr} (h : Derives .operand ts e) : Derives .comparison ts e :=
  .tighter rfl (.tighter rfl (.tighter rfl (.tighter rfl (.tighter rfl (.tighter rfl
    (.tighter rfl (.tighter rfl h)))))))

/-- A phrase starts with an operand or, unless it is too tight for that, with its sign. -/
theorem exists_cons {e : Expr} : ∀ {p ts}, Derives p ts e → ∃ token rest, ts = token :: rest ∧
    token.kind ≠ .separator ∧ token.kind ≠ .closeParen ∧
    (Phrase.signed.rank < p.rank → token.kind ≠ .operator)
  | p, ts, .tighter hpq he => by
      obtain ⟨token, rest, rfl, hseparator, hclose, hoperator⟩ := exists_cons he
      refine ⟨token, rest, rfl, hseparator, hclose, fun hp => hoperator ?_⟩
      exact Nat.lt_trans hp (Phrase.rank_of_tighter? hpq ▸ Nat.lt_succ_self _)
  | p, _, .binary hpq hop hl hsign hr => by
      obtain ⟨token, rest, rfl, h⟩ := exists_cons hl
      exact ⟨token, _, rfl, h⟩
  | _, _, .percent he hsign => by
      obtain ⟨token, rest, rfl, h⟩ := exists_cons he
      exact ⟨token, _, rfl, h⟩
  | _, _, .minus hsign he => by
      have hkind := (Token.isOperator_iff.mp hsign).1
      exact ⟨_, _, rfl, by simp [hkind], by simp [hkind], fun h => absurd h (Nat.lt_irrefl _)⟩
  | _, _, .plus hsign he => by
      have hkind := (Token.isOperator_iff.mp hsign).1
      exact ⟨_, _, rfl, by simp [hkind], by simp [hkind], fun h => absurd h (Nat.lt_irrefl _)⟩
  | _, _, .atom he => by
      obtain ⟨hoperator, hseparator, hclose⟩ := he.kind_ne
      exact ⟨_, _, rfl, hseparator, hclose, fun _ => hoperator⟩
  | _, _, .noArguments hfirst _ _ | _, _, .call hfirst _ _ _ | _, _, .group hfirst _ _
  | _, _, .union hfirst _ _ | _, _, .table hfirst _ _ =>
      ⟨_, _, rfl, by simp [hfirst], by simp [hfirst], fun _ => by simp [hfirst]⟩

end Derives

end Spreadsheet.Formula
