-- SUMMARY: What each reader of the grammar takes from the front of its tokens.
import Spreadsheet.Proofs.Phrase
import Spreadsheet.Proofs.Result

/-!
# What the readers take

One lemma for each reader says what it takes and what it leaves, in terms of the readers it uses.
-/

namespace Spreadsheet.Formula

open Text

variable {α : Type} {ts rest : List Token} {token : Token} {finish level : Nat} {e left : Expr}

/-- The reader takes `a` from the front of its tokens and leaves `rest`. -/
def Takes (reader : Except Malformed (Front α ts)) (a : α) (rest : List Token) : Prop :=
  ∃ h, reader = .ok ⟨a, rest, h⟩

/-- The reader goes on with its tokens to `a` and leaves `rest`. -/
def GoesOn (reader : Except Malformed (Tail α ts)) (a : α) (rest : List Token) : Prop :=
  ∃ h, reader = .ok ⟨a, rest, h⟩

theorem Takes.length_lt {reader : Except Malformed (Front α ts)} {a : α}
    (h : Takes reader a rest) : rest.length < ts.length :=
  h.elim fun h _ => h

theorem GoesOn.length_le {reader : Except Malformed (Tail α ts)} {a : α}
    (h : GoesOn reader a rest) : rest.length ≤ ts.length :=
  h.elim fun h _ => h

section Steps

variable {us mid : List Token} {β : Type} {a a' : α} {b : β}

/-! A reader made of two readers takes what the second one takes behind the first. -/

theorem takes_bind_takes {reader : Except Malformed (Front α us)}
    {f : Front α us → Except Malformed (Front β ts)} :
    Takes (reader >>= f) b rest ↔
      ∃ a mid, ∃ h : Takes reader a mid, Takes (f ⟨a, mid, h.length_lt⟩) b rest := by
  constructor
  · rintro ⟨hlt, h⟩
    obtain ⟨⟨a, mid, hmid⟩, hreader, h⟩ := bind_eq_ok.mp h
    exact ⟨a, mid, ⟨hmid, hreader⟩, hlt, h⟩
  · rintro ⟨a, mid, ⟨hmid, hreader⟩, hlt, h⟩
    exact ⟨hlt, bind_eq_ok.mpr ⟨_, hreader, h⟩⟩

theorem takes_bind_goesOn {reader : Except Malformed (Tail α us)}
    {f : Tail α us → Except Malformed (Front β ts)} :
    Takes (reader >>= f) b rest ↔
      ∃ a mid, ∃ h : GoesOn reader a mid, Takes (f ⟨a, mid, h.length_le⟩) b rest := by
  constructor
  · rintro ⟨hlt, h⟩
    obtain ⟨⟨a, mid, hmid⟩, hreader, h⟩ := bind_eq_ok.mp h
    exact ⟨a, mid, ⟨hmid, hreader⟩, hlt, h⟩
  · rintro ⟨a, mid, ⟨hmid, hreader⟩, hlt, h⟩
    exact ⟨hlt, bind_eq_ok.mpr ⟨_, hreader, h⟩⟩

theorem goesOn_bind_takes {reader : Except Malformed (Front α us)}
    {f : Front α us → Except Malformed (Tail β ts)} :
    GoesOn (reader >>= f) b rest ↔
      ∃ a mid, ∃ h : Takes reader a mid, GoesOn (f ⟨a, mid, h.length_lt⟩) b rest := by
  constructor
  · rintro ⟨hle, h⟩
    obtain ⟨⟨a, mid, hmid⟩, hreader, h⟩ := bind_eq_ok.mp h
    exact ⟨a, mid, ⟨hmid, hreader⟩, hle, h⟩
  · rintro ⟨a, mid, ⟨hmid, hreader⟩, hle, h⟩
    exact ⟨hle, bind_eq_ok.mpr ⟨_, hreader, h⟩⟩

theorem goesOn_bind_goesOn {reader : Except Malformed (Tail α us)}
    {f : Tail α us → Except Malformed (Tail β ts)} :
    GoesOn (reader >>= f) b rest ↔
      ∃ a mid, ∃ h : GoesOn reader a mid, GoesOn (f ⟨a, mid, h.length_le⟩) b rest := by
  constructor
  · rintro ⟨hle, h⟩
    obtain ⟨⟨a, mid, hmid⟩, hreader, h⟩ := bind_eq_ok.mp h
    exact ⟨a, mid, ⟨hmid, hreader⟩, hle, h⟩
  · rintro ⟨a, mid, ⟨hmid, hreader⟩, hle, h⟩
    exact ⟨hle, bind_eq_ok.mpr ⟨_, hreader, h⟩⟩

theorem takes_pure {h : mid.length < ts.length} :
    Takes (pure ⟨a, mid, h⟩ : Except Malformed (Front α ts)) a' rest ↔ a' = a ∧ rest = mid := by
  constructor
  · rintro ⟨_, h⟩
    cases h
    exact ⟨rfl, rfl⟩
  · rintro ⟨rfl, rfl⟩
    exact ⟨h, rfl⟩

theorem goesOn_pure {h : mid.length ≤ ts.length} :
    GoesOn (pure ⟨a, mid, h⟩ : Except Malformed (Tail α ts)) a' rest ↔ a' = a ∧ rest = mid := by
  constructor
  · rintro ⟨_, h⟩
    cases h
    exact ⟨rfl, rfl⟩
  · rintro ⟨rfl, rfl⟩
    exact ⟨h, rfl⟩

end Steps

namespace Grammar

/-! ## Tokens and constants -/

theorem takes_expect {kind : TokenKind} {what : Wanted} {done : Unit} :
    Takes (expect finish kind what ts) done rest ↔
      ∃ token, ts = token :: rest ∧ token.kind = kind := by
  unfold expect
  constructor
  · rintro ⟨_, h⟩
    split at h
    · cases h
    · split at h
      · rename_i hkind
        cases h
        exact ⟨_, rfl, hkind⟩
      · cases h
  · rintro ⟨token, rfl, hkind⟩
    exact ⟨Nat.lt_succ_self _, if_pos hkind⟩

/-- A constant of a table is read as it is derived. -/
theorem takes_constant {s : Scalar} :
    Takes (constant finish ts) s rest ↔ ∃ used, ts = used ++ rest ∧ Constant used s := by
  unfold constant
  dsimp only
  constructor
  · rintro ⟨hlt, h⟩
    split at h
    · cases h
    rename_i sign rest
    split at h
    · rename_i hsign
      split at h
      · cases h
      rename_i token rest
      split at h
      · rename_i hkind
        split at h
        · rename_i x hx
          cases h
          refine ⟨[sign, token], rfl, ?_⟩
          split
          · rename_i hminus
            exact .minus hminus hkind hx
          · rename_i hminus
            exact .plus (((Bool.or_eq_true _ _).mp hsign).resolve_left hminus) hkind hx
        · cases h
        · cases h
      · cases h
    · split at h
      · rename_i hs
        cases h
        exact ⟨[sign], rfl, .plain hs⟩
      · cases h
      · cases h
  · rintro ⟨_, rfl, hconstant⟩
    cases hconstant with
    | @plain token _ h =>
        have hkind : token.kind ≠ .operator := (Atom.constant h).kind_ne.1
        have hsign {symbol : String} : token.isOperator symbol = false :=
          Token.isOperator_eq_false hkind
        exact ⟨Nat.lt_succ_self _, by simp [hsign, h]⟩
    | @plus sign token x hsign hkind h =>
        have hminus : sign.isOperator "-" = false :=
          Token.isOperator_eq_false_of_ne hsign (by decide)
        exact ⟨Nat.lt_succ_of_lt (Nat.lt_succ_self _), by simp [hsign, hminus, hkind, h]⟩
    | @minus sign token x hsign hkind h =>
        exact ⟨Nat.lt_succ_of_lt (Nat.lt_succ_self _), by simp [hsign, hkind, h]⟩

/-! ## Tables -/

section Constants

variable {mark : Token} {row : List Scalar} {rows : List (List Scalar)}
  {found : List Scalar × List (List Scalar)}

theorem goesOn_constants_stop
    (h : ∀ token ∈ ts.head?, token.isSeparator "," = false ∧ token.isSeparator ";" = false) :
    GoesOn (constants finish ts) found rest ↔ found = ([], []) ∧ rest = ts := by
  unfold constants
  cases ts with
  | nil => exact goesOn_pure
  | cons token ts =>
      obtain ⟨hcomma, hsemicolon⟩ := h token rfl
      simp only [hcomma, hsemicolon, Bool.false_eq_true, if_false]
      exact goesOn_pure

theorem goesOn_constants_comma (hmark : mark.isSeparator ",") :
    GoesOn (constants finish (mark :: ts)) found rest ↔
      ∃ s mid row rows, Takes (constant finish ts) s mid ∧
        GoesOn (constants finish mid) (row, rows) rest ∧ found = (s :: row, rows) := by
  rw [constants.eq_def finish (mark :: ts)]
  simp only [hmark, if_true, goesOn_bind_takes, goesOn_bind_goesOn, goesOn_pure, Prod.exists,
    exists_prop]
  grind

theorem goesOn_constants_semicolon (hmark : mark.isSeparator ";") :
    GoesOn (constants finish (mark :: ts)) found rest ↔
      ∃ s mid row rows, Takes (constant finish ts) s mid ∧
        GoesOn (constants finish mid) (row, rows) rest ∧ found = ([], (s :: row) :: rows) := by
  have hcomma : mark.isSeparator "," = false :=
    Token.isSeparator_eq_false_of_ne hmark (by decide)
  rw [constants.eq_def finish (mark :: ts)]
  simp only [hmark, hcomma, if_true, Bool.false_eq_true, if_false, goesOn_bind_takes,
    goesOn_bind_goesOn, goesOn_pure, Prod.exists, exists_prop]
  grind

theorem takes_table {position : Nat} {t : Table} :
    Takes (table finish position ts) t rest ↔
      ∃ s mid row rows closing, Takes (constant finish ts) s mid ∧
        GoesOn (constants finish mid) (row, rows) (closing :: rest) ∧
        closing.kind = .closeBrace ∧ Table.ofRows? ((s :: row) :: rows) = some t := by
  unfold table
  simp only [takes_bind_takes, takes_bind_goesOn, Prod.exists]
  constructor
  · rintro ⟨s, mid, hs, row, rows, _, hrows, done, _, hclosing, h⟩
    obtain ⟨closing, rfl, hkind⟩ := takes_expect.mp hclosing
    split at h
    · rename_i t' ht
      obtain ⟨rfl, rfl⟩ := takes_pure.mp h
      exact ⟨s, mid, row, rows, closing, hs, hrows, hkind, ht⟩
    · obtain ⟨_, h⟩ := h
      cases h
  · rintro ⟨s, mid, row, rows, closing, hs, hrows, hclosing, ht⟩
    refine ⟨s, mid, hs, row, rows, _, hrows, (), rest,
      takes_expect.mpr ⟨closing, rfl, hclosing⟩, ?_⟩
    simp only [ht, takes_pure, and_self]

end Constants

/-! ## Operators -/

section Operators

variable {right : Expr} {mid : List Token} {op : BinaryOp}

/-- The percent signs at the front end where there is none. -/
theorem percents_stop (h : ∀ token ∈ ts.head?, token.isOperator "%" = false) :
    percents e ts = ⟨e, ts, Nat.le_refl _⟩ := by
  cases ts with
  | nil => rfl
  | cons token ts =>
      rw [percents, if_neg (Bool.eq_false_iff.mp (h token rfl))]

theorem takes_expr (hlevel : level < operatorLevels.length) :
    Takes (expr finish level ts) e rest ↔
      ∃ left mid, Takes (expr finish (level + 1) ts) left mid ∧
        GoesOn (operators finish level left mid) e rest := by
  rw [expr.eq_def finish level ts, if_pos hlevel]
  simp only [takes_bind_takes, takes_bind_goesOn, takes_pure, exists_prop]
  grind

theorem takes_expr_percents (hlevel : operatorLevels.length ≤ level) :
    Takes (expr finish level ts) e rest ↔
      ∃ left mid, Takes (signed finish ts) left mid ∧ e = (percents left mid).taken ∧
        rest = (percents left mid).rest := by
  rw [expr.eq_def finish level ts, if_neg (Nat.not_lt.mpr hlevel)]
  simp only [takes_bind_takes, takes_pure, exists_prop]

theorem goesOn_operators_stop (h : ∀ token ∈ ts.head?, token.operator? level = none) :
    GoesOn (operators finish level left ts) e rest ↔ e = left ∧ rest = ts := by
  rw [operators.eq_def]
  cases ts with
  | nil => exact goesOn_pure
  | cons token ts =>
      simp only [h token rfl]
      exact goesOn_pure

theorem goesOn_operators_cons (h : token.operator? level = some op) :
    GoesOn (operators finish level left (token :: ts)) e rest ↔
      ∃ right mid, Takes (expr finish (level + 1) ts) right mid ∧
        GoesOn (operators finish level (.binary op left right) mid) e rest := by
  rw [operators.eq_def finish level left (token :: ts)]
  simp only [h, goesOn_bind_takes, goesOn_bind_goesOn, goesOn_pure, exists_prop]
  grind

theorem goesOn_ranges_stop (h : ∀ token ∈ ts.head?, token.isOperator ":" = false) :
    GoesOn (ranges finish left ts) e rest ↔ e = left ∧ rest = ts := by
  rw [ranges.eq_def]
  cases ts with
  | nil => exact goesOn_pure
  | cons token ts =>
      simp only [h token rfl, Bool.false_eq_true, if_false]
      exact goesOn_pure

theorem goesOn_ranges_cons (h : token.isOperator ":") :
    GoesOn (ranges finish left (token :: ts)) e rest ↔
      ∃ right mid, Takes (operand finish ts) right mid ∧
        GoesOn (ranges finish (.binary .range left right) mid) e rest := by
  rw [ranges.eq_def finish left (token :: ts)]
  simp only [h, if_true, goesOn_bind_takes, goesOn_bind_goesOn, goesOn_pure, exists_prop]
  grind

theorem takes_signed
    (h : ∀ token ∈ ts.head?, token.isOperator "-" = false ∧ token.isOperator "+" = false) :
    Takes (signed finish ts) e rest ↔
      ∃ left mid, Takes (operand finish ts) left mid ∧ GoesOn (ranges finish left mid) e rest := by
  rw [signed.eq_def]
  cases ts with
  | nil =>
      rw [operand.eq_def]
      constructor
      · rintro ⟨_, h⟩
        cases h
      · rintro ⟨_, _, ⟨_, h⟩, -⟩
        cases h
  | cons token ts =>
      obtain ⟨hminus, hplus⟩ := h token rfl
      simp only [hminus, hplus, Bool.false_eq_true, if_false, takes_bind_takes, takes_bind_goesOn,
        takes_pure, exists_prop]
      grind

theorem takes_signed_minus (h : token.isOperator "-") :
    Takes (signed finish (token :: ts)) e rest ↔
      ∃ e', Takes (signed finish ts) e' rest ∧ e = .unary .negate e' := by
  rw [signed.eq_def finish (token :: ts)]
  simp only [h, if_true, takes_bind_takes, takes_pure, exists_prop]
  grind

theorem takes_signed_plus (h : token.isOperator "+") :
    Takes (signed finish (token :: ts)) e rest ↔ Takes (signed finish ts) e rest := by
  have hminus : token.isOperator "-" = false := Token.isOperator_eq_false_of_ne h (by decide)
  rw [signed.eq_def finish (token :: ts)]
  simp only [h, hminus, if_true, Bool.false_eq_true, if_false, takes_bind_takes, takes_pure,
    exists_prop]
  grind

end Operators

/-! ## Operands -/

section Operands

variable {mark : Token} {ofCall : Bool} {es : List Expr}

/-- What an operand is read from. -/
inductive ReadsOperand (finish : Nat) : List Token → Expr → List Token → Prop where
  | atom {token : Token} {ts : List Token} {e : Expr} (he : Atom token e) :
      ReadsOperand finish (token :: ts) e ts
  | call {function opening closing : Token} {ts rest : List Token} {es : List Expr}
      (hfunction : function.kind = .function) (hopening : opening.kind = .openParen)
      (hes : GoesOn (arguments finish ts) es (closing :: rest))
      (hclosing : closing.kind = .closeParen) :
      ReadsOperand finish (function :: opening :: ts) (.call (upper function.text) es) rest
  | group {opening closing : Token} {ts mid rest : List Token} {first : Expr} {others : List Expr}
      (hopening : opening.kind = .openParen) (hfirst : Takes (expr finish 0 ts) first mid)
      (hothers : GoesOn (items finish false mid) others (closing :: rest))
      (hclosing : closing.kind = .closeParen) :
      ReadsOperand finish (opening :: ts)
        (if others.isEmpty then first else .union (first :: others)) rest
  | table {opening : Token} {ts rest : List Token} {t : Table}
      (hopening : opening.kind = .openBrace)
      (ht : Takes (table finish opening.position ts) t rest) :
      ReadsOperand finish (opening :: ts) (.table t) rest

theorem constantOf?_eq_none {kind : TokenKind} (hkind : token.kind = kind)
    (h : kind ∉ [.number, .text, .bool, .error]) : constantOf? token = none := by
  unfold constantOf?
  subst hkind
  split <;> simp_all

theorem readsOperand_of_takes (h : Takes (operand finish ts) e rest) :
    ReadsOperand finish ts e rest := by
  rw [operand.eq_def] at h
  cases ts with
  | nil =>
      obtain ⟨_, h⟩ := h
      cases h
  | cons token ts =>
      dsimp only at h
      split at h
      · rename_i s hs
        obtain ⟨rfl, rfl⟩ := takes_pure.mp h
        exact .atom (.constant hs)
      · obtain ⟨_, h⟩ := h
        cases h
      split at h
      · rename_i hkind
        obtain ⟨_, h⟩ := h
        obtain ⟨e, he, h⟩ := bind_eq_ok.mp h
        cases h
        exact .atom (.reference (.inl hkind) he)
      · rename_i hkind
        obtain ⟨_, h⟩ := h
        obtain ⟨e, he, h⟩ := bind_eq_ok.mp h
        cases h
        exact .atom (.reference (.inr hkind) he)
      · rename_i hkind
        obtain ⟨rfl, rfl⟩ := takes_pure.mp h
        exact .atom (.name hkind)
      · rename_i hkind
        simp only [takes_bind_takes, takes_bind_goesOn, takes_pure] at h
        obtain ⟨_, _, hopening, es, _, hes, _, _, hclosing, rfl, rfl⟩ := h
        obtain ⟨opening, rfl, hopenKind⟩ := takes_expect.mp hopening
        obtain ⟨closing, rfl, hcloseKind⟩ := takes_expect.mp hclosing
        exact .call hkind hopenKind hes hcloseKind
      · rename_i hkind
        simp only [takes_bind_takes, takes_bind_goesOn, takes_pure] at h
        obtain ⟨first, mid, hfirst, others, _, hothers, _, _, hclosing, rfl, rfl⟩ := h
        obtain ⟨closing, rfl, hcloseKind⟩ := takes_expect.mp hclosing
        exact .group hkind hfirst hothers hcloseKind
      · rename_i hkind
        simp only [takes_bind_takes, takes_pure] at h
        obtain ⟨t, _, ht, rfl, rfl⟩ := h
        exact .table hkind ht
      · obtain ⟨_, h⟩ := h
        cases h

theorem ReadsOperand.takes (h : ReadsOperand finish ts e rest) :
    Takes (operand finish ts) e rest := by
  rw [operand.eq_def]
  cases h with
  | atom he =>
      cases he with
      | constant h =>
          simp only [h]
          exact takes_pure.mpr ⟨rfl, rfl⟩
      | reference hkind h =>
          obtain hkind | hkind := hkind
          all_goals
            have hnone := constantOf?_eq_none hkind (by decide)
            simp only [hnone, hkind]
            exact ⟨Nat.lt_succ_self _, bind_eq_ok.mpr ⟨_, h, rfl⟩⟩
      | name hkind =>
          have hnone := constantOf?_eq_none hkind (by decide)
          simp only [hnone, hkind]
          exact takes_pure.mpr ⟨rfl, rfl⟩
  | call hfunction hopening hes hclosing =>
      have hnone := constantOf?_eq_none hfunction (by decide)
      simp only [hnone, hfunction, takes_bind_takes, takes_bind_goesOn, takes_pure]
      exact ⟨(), _, takes_expect.mpr ⟨_, rfl, hopening⟩, _, _, hes, (), _,
        takes_expect.mpr ⟨_, rfl, hclosing⟩, rfl, rfl⟩
  | group hopening hfirst hothers hclosing =>
      have hnone := constantOf?_eq_none hopening (by decide)
      simp only [hnone, hopening, takes_bind_takes, takes_bind_goesOn, takes_pure]
      exact ⟨_, _, hfirst, _, _, hothers, (), _, takes_expect.mpr ⟨_, rfl, hclosing⟩, rfl, rfl⟩
  | table hopening ht =>
      have hnone := constantOf?_eq_none hopening (by decide)
      simp only [hnone, hopening, takes_bind_takes, takes_pure]
      exact ⟨_, _, ht, rfl, rfl⟩

theorem takes_operand : Takes (operand finish ts) e rest ↔ ReadsOperand finish ts e rest :=
  ⟨readsOperand_of_takes, ReadsOperand.takes⟩

/-! ## Arguments -/

/-- An argument is an expression, and it cannot be left out. -/
theorem takes_argument :
    Takes (argument finish ts) e rest ↔
      (∀ token ∈ ts.head?, ¬ token.isSeparator "," ∧ token.kind ≠ .closeParen) ∧
        Takes (expr finish 0 ts) e rest := by
  rw [argument.eq_def]
  cases ts with
  | nil => simp
  | cons token ts =>
      by_cases hmissing : token.isSeparator "," ∨ token.kind = .closeParen
      · have hmissing' : (token.isSeparator "," || token.kind = .closeParen) = true := by
          simpa using hmissing
        simp only [hmissing', if_true]
        constructor
        · rintro ⟨_, h⟩
          cases h
        · rintro ⟨h, -⟩
          exact absurd hmissing (not_or.mpr (h token rfl))
      · have hmissing' : (token.isSeparator "," || token.kind = .closeParen) = false := by
          simpa using hmissing
        have hfirst : ∀ token' ∈ (token :: ts).head?,
            ¬ token'.isSeparator "," ∧ token'.kind ≠ .closeParen := by
          rintro _ ⟨⟩
          exact not_or.mp hmissing
        simp only [hmissing', Bool.false_eq_true, if_false]
        exact (and_iff_right hfirst).symm

theorem goesOn_arguments :
    GoesOn (arguments finish ts) es rest ↔
      (ts.head?.map (·.kind) = some .closeParen ∧ es = [] ∧ rest = ts) ∨
        (ts.head?.map (·.kind) ≠ some .closeParen ∧
          ∃ first mid others, Takes (argument finish ts) first mid ∧
            GoesOn (items finish true mid) others rest ∧ es = first :: others) := by
  rw [arguments.eq_def]
  split
  · rename_i hclose
    simp [hclose, goesOn_pure]
  · rename_i hclose
    simp only [hclose, false_and, not_false_eq_true, true_and, false_or, goesOn_bind_takes,
      goesOn_bind_goesOn, goesOn_pure, exists_prop, ne_eq]
    grind

theorem goesOn_items_stop (h : ∀ token ∈ ts.head?, token.isSeparator "," = false) :
    GoesOn (items finish ofCall ts) es rest ↔ es = [] ∧ rest = ts := by
  rw [items.eq_def]
  cases ts with
  | nil => exact goesOn_pure
  | cons token ts =>
      simp only [h token rfl, Bool.false_eq_true, if_false]
      exact goesOn_pure

/-- The reader of what stands behind a comma. -/
def item (finish : Nat) (ofCall : Bool) (ts : List Token) : Except Malformed (Front Expr ts) :=
  if ofCall then argument finish ts else expr finish 0 ts

theorem goesOn_items_comma (hmark : mark.isSeparator ",") :
    GoesOn (items finish ofCall (mark :: ts)) es rest ↔
      ∃ e mid others, Takes (item finish ofCall ts) e mid ∧
        GoesOn (items finish ofCall mid) others rest ∧ es = e :: others := by
  rw [items.eq_def finish ofCall (mark :: ts)]
  cases ofCall <;>
    simp only [hmark, if_true, Bool.false_eq_true, if_false, goesOn_bind_takes,
      goesOn_bind_goesOn, goesOn_pure, exists_prop, item] <;>
    grind

end Operands

end Grammar

end Spreadsheet.Formula
