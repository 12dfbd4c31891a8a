-- SUMMARY: The readers take exactly what the rules of the grammar derive.
import Spreadsheet.Proofs.Readers

/-!
# The readers and the grammar

Each phrase has a reader: it takes a tighter phrase and goes on as long as operators of its own
follow. What a reader takes is derived by the rules, and what the rules derive is taken by the
reader, provided that it does not go on behind it.
-/

namespace Spreadsheet

theorem Table.ofRows?_eq_some {row : List Scalar} {rows : List (List Scalar)} {t : Table} :
    ofRows? (row :: rows) = some t ↔
      row ≠ [] ∧ (∀ r ∈ rows, r.length = row.length) ∧
        t = ⟨rows.length + 1, row.length, (row :: rows).flatten.toArray⟩ := by
  have hragged : (row.isEmpty || rows.any (·.length != row.length)) = false ↔
      row ≠ [] ∧ ∀ r ∈ rows, r.length = row.length := by
    simp [Bool.or_eq_false_iff]
  rw [ofRows?, ← and_assoc, ← hragged]
  split
  · rename_i h
    simp [h]
  · rename_i h
    simp [Bool.eq_false_iff.mpr h, eq_comm]

namespace Formula

open Text

variable {finish : Nat} {ts us rest mid : List Token} {token : Token} {p q : Phrase}
  {e left right : Expr}

namespace Grammar

/-! ## Tables -/

section Tables

variable {s : Scalar} {row : List Scalar} {rows : List (List Scalar)}

/-- Another constant in front of the first row. -/
theorem rows_cons {mark : Token} (hs : Constant ts s) (hmark : mark.isSeparator ",")
    (hrows : Separated ";" (Separated "," Constant) us (row :: rows)) :
    Separated ";" (Separated "," Constant) (ts ++ mark :: us) ((s :: row) :: rows) := by
  cases hrows with
  | single hrow => exact .single (.cons hs hmark hrow)
  | @cons us₁ us₂ mark₂ _ _ hrow hmark₂ hrows =>
      have h := Separated.cons (Separated.cons hs hmark hrow) hmark₂ hrows
      rwa [List.append_assoc, List.cons_append] at h

/-- The constants behind the first one make up rows together with it. -/
theorem rows_of_goesOn_constants {ts rest : List Token} {row : List Scalar}
    {rows : List (List Scalar)} (h : GoesOn (constants finish ts) (row, rows) rest) :
    ∃ used, ts = used ++ rest ∧ ∀ {before s}, Constant before s →
      Separated ";" (Separated "," Constant) (before ++ used) ((s :: row) :: rows) := by
  -- a comma goes on with the row, a semicolon with the next row, and anything else ends the rows
  match ts with
  | [] =>
      obtain ⟨hfound, rfl⟩ := (goesOn_constants_stop (by simp)).mp h
      cases hfound
      refine ⟨[], rfl, fun hs => ?_⟩
      rw [List.append_nil]
      exact .single (.single hs)
  | mark :: ts =>
      cases hcomma : mark.isSeparator "," with
      | true =>
          obtain ⟨s, mid, row', rows', hs, hrows, hfound⟩ := (goesOn_constants_comma hcomma).mp h
          cases hfound
          have hlt := hs.length_lt
          obtain ⟨used, rfl, hused⟩ := takes_constant.mp hs
          obtain ⟨used', rfl, hused'⟩ := rows_of_goesOn_constants hrows
          refine ⟨mark :: (used ++ used'), by simp, fun hbefore => ?_⟩
          exact rows_cons hbefore hcomma (hused' hused)
      | false =>
          cases hsemicolon : mark.isSeparator ";" with
          | true =>
              obtain ⟨s, mid, row', rows', hs, hrows, hfound⟩ :=
                (goesOn_constants_semicolon hsemicolon).mp h
              cases hfound
              have hlt := hs.length_lt
              obtain ⟨used, rfl, hused⟩ := takes_constant.mp hs
              obtain ⟨used', rfl, hused'⟩ := rows_of_goesOn_constants hrows
              refine ⟨mark :: (used ++ used'), by simp, fun hbefore => ?_⟩
              exact .cons (.single hbefore) hsemicolon (hused' hused)
          | false =>
              have hstop : ∀ token ∈ (mark :: ts).head?,
                  token.isSeparator "," = false ∧ token.isSeparator ";" = false := by
                rintro _ ⟨⟩
                exact ⟨hcomma, hsemicolon⟩
              obtain ⟨hfound, rfl⟩ := (goesOn_constants_stop hstop).mp h
              cases hfound
              refine ⟨[], rfl, fun hs => ?_⟩
              rw [List.append_nil]
              exact .single (.single hs)
termination_by ts.length
decreasing_by
  all_goals
    have hlength : (mark :: ts).length = ts.length + 1 := rfl
    grind

/-- The reader takes the rows from the front and leaves `rest`. -/
def TakesRows (finish : Nat) (ts : List Token) (rows : List (List Scalar)) (rest : List Token) :
    Prop :=
  ∃ s mid row rows', rows = (s :: row) :: rows' ∧ Takes (constant finish ts) s mid ∧
    GoesOn (constants finish mid) (row, rows') rest

theorem takesRows_of_row {ts : List Token} (hrow : Separated "," Constant ts row)
    (hrest : GoesOn (constants finish mid) ([], rows) rest) :
    TakesRows finish (ts ++ mid) (row :: rows) rest := by
  induction hrow with
  | @single ts s hs => exact ⟨s, mid, [], rows, rfl, takes_constant.mpr ⟨ts, rfl, hs⟩, hrest⟩
  | @cons ts us mark s row hs hmark _ ih =>
      obtain ⟨s', mid', row', rows', hrows, hs', hrest'⟩ := ih
      cases hrows
      refine ⟨s, mark :: (us ++ mid), s' :: row', rows, rfl,
        takes_constant.mpr ⟨ts, by simp, hs⟩, ?_⟩
      exact (goesOn_constants_comma hmark).mpr ⟨s', mid', row', rows, hs', hrest', rfl⟩

theorem takesRows_of_rows {ts : List Token}
    (hrows : Separated ";" (Separated "," Constant) ts rows)
    (hrest : ∀ token ∈ rest.head?,
      token.isSeparator "," = false ∧ token.isSeparator ";" = false) :
    TakesRows finish (ts ++ rest) rows rest := by
  induction hrows with
  | single hrow =>
      exact takesRows_of_row hrow ((goesOn_constants_stop hrest).mpr ⟨rfl, rfl⟩)
  | @cons ts us mark row rows hrow hmark _ ih =>
      obtain ⟨s, mid, row', rows', rfl, hs, hrest'⟩ := ih
      rw [List.append_assoc]
      refine takesRows_of_row hrow ?_
      exact (goesOn_constants_semicolon hmark).mpr ⟨s, mid, row', rows', hs, hrest', rfl⟩

theorem takes_table_iff {position : Nat} {t : Table} :
    Takes (table finish position ts) t rest ↔
      ∃ used closing, ts = used ++ closing :: rest ∧ closing.kind = .closeBrace ∧
        Tabular used t := by
  rw [takes_table]
  constructor
  · rintro ⟨s, mid, row, rows, closing, hs, hrows, hclosing, ht⟩
    obtain ⟨used, rfl, hused⟩ := takes_constant.mp hs
    obtain ⟨used', rfl, hused'⟩ := rows_of_goesOn_constants hrows
    obtain ⟨-, hwidth, rfl⟩ := Table.ofRows?_eq_some.mp ht
    refine ⟨used ++ used', closing, by simp, hclosing, ?_⟩
    exact .intro (hused' hused) (List.forall_mem_cons.mpr ⟨rfl, hwidth⟩)
  · rintro ⟨used, closing, rfl, hclosing, ⟨hrows, hwidth⟩⟩
    have hrest : ∀ token ∈ (closing :: rest).head?,
        token.isSeparator "," = false ∧ token.isSeparator ";" = false := by
      rintro _ ⟨⟩
      exact ⟨Token.isSeparator_eq_false (by simp [hclosing]),
        Token.isSeparator_eq_false (by simp [hclosing])⟩
    obtain ⟨s, mid, row, rows, rfl, hs, hrest⟩ := takesRows_of_rows hrows hrest
    obtain ⟨hrow, hwidth⟩ := List.forall_mem_cons.mp hwidth
    refine ⟨s, mid, row, rows, closing, hs, hrest, hclosing, Table.ofRows?_eq_some.mpr ?_⟩
    subst hrow
    exact ⟨List.cons_ne_nil s row, hwidth, rfl⟩

end Tables

/-! ## Readers of phrases -/

/-- The reader of the phrase takes `e` from the front of the tokens and leaves `rest`. -/
def Reads (finish : Nat) (p : Phrase) (ts : List Token) (e : Expr) (rest : List Token) : Prop :=
  match p with
  | .signed => Takes (signed finish ts) e rest
  | .range =>
    ∃ left mid, Takes (operand finish ts) left mid ∧ GoesOn (ranges finish left mid) e rest
  | .operand => Takes (operand finish ts) e rest
  | p => Takes (expr finish p.rank ts) e rest

/-- The reader of the phrase goes on behind `left` to `e` and leaves `rest`. -/
def Extends (finish : Nat) (p : Phrase) (left : Expr) (ts : List Token) (e : Expr)
    (rest : List Token) : Prop :=
  match p with
  | .percent => e = (percents left ts).taken ∧ rest = (percents left ts).rest
  | .signed | .operand => e = left ∧ rest = ts
  | .range => GoesOn (ranges finish left ts) e rest
  | p => GoesOn (operators finish p.rank left ts) e rest

theorem Reads.length_lt (h : Reads finish p ts e rest) : rest.length < ts.length := by
  cases p with
  | range =>
      obtain ⟨left, mid, hleft, h⟩ := h
      exact Nat.lt_of_le_of_lt h.length_le hleft.length_lt
  | _ => exact Takes.length_lt h

theorem Extends.length_le (h : Extends finish p left ts e rest) : rest.length ≤ ts.length := by
  cases p with
  | percent => exact h.2 ▸ (percents left ts).noLonger
  | signed => exact h.2 ▸ Nat.le_refl _
  | operand => exact h.2 ▸ Nat.le_refl _
  | _ => exact GoesOn.length_le h

/-- The reader of a phrase takes a tighter phrase first. -/
theorem reads_iff (hpq : p.tighter? = some q) (hsigned : p ≠ .signed) :
    Reads finish p ts e rest ↔
      ∃ left mid, Reads finish q ts left mid ∧ Extends finish p left mid e rest := by
  cases p with
  | operand => cases hpq
  | signed => exact absurd rfl hsigned
  | range =>
      cases hpq
      exact Iff.rfl
  | percent =>
      cases hpq
      exact takes_expr_percents (Nat.le_refl _)
  | _ =>
      cases hpq
      exact takes_expr (by decide)

theorem reads_signed
    (h : ∀ token ∈ ts.head?, token.isOperator "-" = false ∧ token.isOperator "+" = false) :
    Reads finish .signed ts e rest ↔ Reads finish .range ts e rest :=
  takes_signed h

/-! ### Operators of a phrase -/

variable {op : BinaryOp} {sign : Token}

theorem operatorLevels_rank (hp : p.rank < operatorLevels.length) :
    operatorLevels.getD p.rank [] = p.operators := by
  cases p <;> first | rfl | exact absurd hp (by decide)

theorem operator?_eq_some (hp : p.rank < operatorLevels.length) (hop : op ∈ p.operators)
    (hsign : sign.isOperator op.symbol) : sign.operator? p.rank = some op := by
  rw [Token.operator?, operatorLevels_rank hp]
  cases hfind : p.operators.find? fun op => sign.isOperator op.symbol with
  | none => exact absurd hsign (by simpa using List.find?_eq_none.mp hfind op hop)
  | some op' =>
      have hsign' : sign.isOperator op'.symbol := by simpa using List.find?_some hfind
      have htext := (Token.isOperator_iff.mp hsign').2.symm.trans (Token.isOperator_iff.mp hsign).2
      exact congrArg some (Phrase.eq_of_symbol_eq (List.mem_of_find?_eq_some hfind) hop htext)

theorem isOperator_eq_false_of_endsAt {symbol : String} (h : p.EndsAt token)
    (hsymbol : symbol ∈ p.marks) : token.isOperator symbol = false := by
  refine Bool.eq_false_iff.mpr fun htoken => ?_
  obtain ⟨hkind, rfl⟩ := Token.isOperator_iff.mp htoken
  exact h hkind hsymbol

theorem operator?_eq_none (hp : p.rank < operatorLevels.length) (h : p.EndsAt token) :
    token.operator? p.rank = none := by
  rw [Token.operator?, operatorLevels_rank hp, List.find?_eq_none]
  intro op hop
  rw [isOperator_eq_false_of_endsAt h (Phrase.symbol_mem_marks hop)]
  exact Bool.false_ne_true

/-- An operator that a phrase can go on with is a percent sign or stands between two parts. -/
theorem isOperator_of_not_endsAt (h : ¬ p.EndsAt token) :
    (p = .percent ∧ token.isOperator "%") ∨ ∃ op ∈ p.operators, token.isOperator op.symbol := by
  obtain ⟨hkind, htext⟩ := Classical.not_imp.mp h
  have hmem := Classical.not_not.mp htext
  cases p with
  | percent => exact .inl ⟨rfl, Token.isOperator_iff.mpr ⟨hkind, List.mem_singleton.mp hmem⟩⟩
  | _ =>
      obtain ⟨op, hop, hsymbol⟩ := List.mem_map.mp hmem
      exact .inr ⟨op, hop, Token.isOperator_iff.mpr ⟨hkind, hsymbol.symm⟩⟩

/-- The reader of a phrase stops where no operator of the phrase follows. -/
theorem extends_stop (h : ∀ token ∈ ts.head?, p.EndsAt token) :
    Extends finish p left ts e rest ↔ e = left ∧ rest = ts := by
  cases p with
  | percent =>
      have hend := percents_stop (e := left) fun token htoken =>
        isOperator_eq_false_of_endsAt (h token htoken) (List.mem_singleton_self "%")
      unfold Extends
      dsimp only
      rw [hend]
  | signed => exact Iff.rfl
  | operand => exact Iff.rfl
  | range =>
      exact goesOn_ranges_stop fun token htoken =>
        isOperator_eq_false_of_endsAt (h token htoken) (List.mem_singleton_self ":")
  | _ =>
      exact goesOn_operators_stop fun token htoken => operator?_eq_none (by decide) (h token htoken)

/-- Behind an operator of the phrase stands a tighter phrase. -/
theorem extends_binary (hpq : p.tighter? = some q) (hop : op ∈ p.operators)
    (hsign : sign.isOperator op.symbol) :
    Extends finish p left (sign :: ts) e rest ↔
      ∃ right mid, Reads finish q ts right mid ∧
        Extends finish p (.binary op left right) mid e rest := by
  cases p with
  | percent => cases hop
  | signed => cases hop
  | operand => cases hop
  | range =>
      cases hpq
      obtain rfl := List.mem_singleton.mp hop
      exact goesOn_ranges_cons hsign
  | _ =>
      cases hpq
      exact goesOn_operators_cons (operator?_eq_some (by decide) hop hsign)

theorem extends_percent (hsign : sign.isOperator "%") :
    Extends finish .percent left (sign :: ts) e rest ↔
      Extends finish .percent (.unary .percent left) ts e rest := by
  unfold Extends
  dsimp only
  rw [percents, if_pos hsign]

/-! ## What is read is derived -/

theorem takes_expr_of_item {ofCall : Bool} (h : Takes (item finish ofCall ts) e rest) :
    Takes (expr finish 0 ts) e rest := by
  cases ofCall with
  | true => exact (takes_argument.mp h).2
  | false => exact h

-- The readers are followed in their own recursion: tokens are used up, or the phrase gets tighter.
mutual

theorem Reads.derives {p : Phrase} {ts rest : List Token} {e : Expr}
    (h : Reads finish p ts e rest) : ∃ used, ts = used ++ rest ∧ Derives p used e := by
  have hbound := p.rank_lt
  cases hpq : p.tighter? with
  | none =>
      obtain rfl : p = .operand := by cases p <;> first | rfl | cases hpq
      exact operand_derives (takes_operand.mp h)
  | some q =>
      have hrank := Phrase.rank_of_tighter? hpq
      have hbound := q.rank_lt
      by_cases hsigned : p = .signed
      · have hsigned_rank : p.rank = 6 := hsigned ▸ rfl
        subst hsigned
        exact signed_derives h
      · obtain ⟨left, mid, hleft, he⟩ := (reads_iff hpq hsigned).mp h
        have hlt := hleft.length_lt
        obtain ⟨used, rfl, hused⟩ := hleft.derives
        obtain ⟨used', rfl, hused'⟩ := he.derives (.tighter hpq hused)
        exact ⟨used ++ used', (List.append_assoc ..).symm, hused'⟩
termination_by (ts.length, 2 * (9 - p.rank))

theorem signed_derives {ts rest : List Token} {e : Expr}
    (h : Reads finish .signed ts e rest) :
    ∃ used, ts = used ++ rest ∧ Derives .signed used e := by
  by_cases hsign : ∀ token ∈ ts.head?, token.isOperator "-" = false ∧ token.isOperator "+" = false
  · obtain ⟨used, hts, hused⟩ := ((reads_signed hsign).mp h).derives
    exact ⟨used, hts, .tighter rfl hused⟩
  · match ts with
    | [] => exact absurd (fun _ h => by cases h) hsign
    | sign :: ts =>
        cases hminus : sign.isOperator "-" with
        | true =>
            obtain ⟨e, he, rfl⟩ := (takes_signed_minus hminus).mp h
            obtain ⟨used, rfl, hused⟩ := signed_derives he
            exact ⟨sign :: used, rfl, .minus hminus hused⟩
        | false =>
            have hplus : sign.isOperator "+" := by
              refine Decidable.byContradiction fun hplus => hsign ?_
              rintro _ ⟨⟩
              exact ⟨hminus, Bool.eq_false_iff.mpr hplus⟩
            obtain ⟨used, rfl, hused⟩ := signed_derives ((takes_signed_plus hplus).mp h)
            exact ⟨sign :: used, rfl, .plus hplus hused⟩
termination_by (ts.length, 5)
decreasing_by
  · exact Prod.Lex.right _ (by decide)
  · exact Prod.Lex.left _ _ (Nat.lt_succ_self _)
  · exact Prod.Lex.left _ _ (Nat.lt_succ_self _)

theorem Extends.derives {p : Phrase} {left : Expr} {ts rest before : List Token} {e : Expr}
    (h : Extends finish p left ts e rest) (hleft : Derives p before left) :
    ∃ used, ts = used ++ rest ∧ Derives p (before ++ used) e := by
  by_cases hend : ∀ token ∈ ts.head?, p.EndsAt token
  · obtain ⟨rfl, rfl⟩ := (extends_stop hend).mp h
    exact ⟨[], rfl, by rwa [List.append_nil]⟩
  · match ts with
    | [] => exact absurd (fun _ h => by cases h) hend
    | sign :: ts =>
        have hsign : ¬ p.EndsAt sign := fun hsign => hend (by rintro _ ⟨⟩; exact hsign)
        obtain ⟨rfl, hpercent⟩ | ⟨op, hop, hsign⟩ := isOperator_of_not_endsAt hsign
        · have he := (extends_percent hpercent).mp h
          obtain ⟨used, rfl, hused⟩ := he.derives (.percent hleft hpercent)
          exact ⟨sign :: used, rfl, by simpa using hused⟩
        · obtain ⟨q, hpq⟩ : ∃ q, p.tighter? = some q := by
            cases p <;> first | exact ⟨_, rfl⟩ | cases hop
          obtain ⟨right, mid, hright, he⟩ := (extends_binary hpq hop hsign).mp h
          have hlt := hright.length_lt
          obtain ⟨used, rfl, hused⟩ := hright.derives
          obtain ⟨used', rfl, hused'⟩ := he.derives (.binary hpq hop hleft hsign hused)
          exact ⟨sign :: (used ++ used'), by simp, by simpa using hused'⟩
termination_by (ts.length, 0)

theorem operand_derives {ts rest : List Token} {e : Expr} (h : ReadsOperand finish ts e rest) :
    ∃ used, ts = used ++ rest ∧ Derives .operand used e := by
  cases h with
  | @atom token _ _ he => exact ⟨[token], rfl, .atom he⟩
  | @table opening _ _ _ hopening ht =>
      obtain ⟨used, closing, rfl, hclosing, ht⟩ := takes_table_iff.mp ht
      exact ⟨opening :: (used ++ [closing]), by simp, .table hopening ht hclosing⟩
  | @group opening closing ts mid _ first others hopening hfirst hothers hclosing =>
      have hlt := hfirst.length_lt
      have hfirst : Reads finish .comparison ts first mid := hfirst
      obtain ⟨used, rfl, hused⟩ := hfirst.derives
      obtain ⟨used', rfl, hused'⟩ := items_derive hothers hused
      refine ⟨opening :: (used ++ used' ++ [closing]), by simp, ?_⟩
      cases others with
      | nil => exact .group hopening hused'.part hclosing
      | cons => exact .union hopening hused' hclosing
  | @call function opening closing ts _ es hfunction hopening hes hclosing =>
      obtain ⟨-, rfl, rfl⟩ | ⟨-, first, mid, others, hfirst, hothers, rfl⟩ :=
        goesOn_arguments.mp hes
      · exact ⟨[function, opening, closing], rfl, .noArguments hfunction hopening hclosing⟩
      · have hlt := hfirst.length_lt
        have hfirst : Reads finish .comparison ts first mid := (takes_argument.mp hfirst).2
        obtain ⟨used, rfl, hused⟩ := hfirst.derives
        obtain ⟨used', rfl, hused'⟩ := items_derive hothers hused
        exact ⟨function :: opening :: (used ++ used' ++ [closing]), by simp,
          .call hfunction hopening hused' hclosing⟩
termination_by (ts.length, 1)

theorem items_derive {ofCall : Bool} {ts rest before : List Token} {first : Expr}
    {others : List Expr} (h : GoesOn (items finish ofCall ts) others rest)
    (hfirst : Derives .comparison before first) :
    ∃ used, ts = used ++ rest ∧
      Separated "," (Derives .comparison) (before ++ used) (first :: others) := by
  by_cases hstop : ∀ token ∈ ts.head?, token.isSeparator "," = false
  · obtain ⟨rfl, rfl⟩ := (goesOn_items_stop hstop).mp h
    exact ⟨[], rfl, by rw [List.append_nil]; exact .single hfirst⟩
  · match ts with
    | [] => exact absurd (fun _ h => by cases h) hstop
    | mark :: ts =>
        have hmark : mark.isSeparator "," := by
          refine Decidable.byContradiction fun hmark => hstop ?_
          rintro _ ⟨⟩
          exact Bool.eq_false_iff.mpr hmark
        obtain ⟨e, mid, others, he, hothers, rfl⟩ := (goesOn_items_comma hmark).mp h
        have hlt := he.length_lt
        have he : Reads finish .comparison ts e mid := takes_expr_of_item he
        obtain ⟨used, rfl, hused⟩ := he.derives
        obtain ⟨used', rfl, hused'⟩ := items_derive hothers hused
        exact ⟨mark :: (used ++ used'), by simp, .cons hfirst hmark hused'⟩
termination_by (ts.length, 0)

end

/-! ## What is derived is read -/

/-- An expression that is derived can be an argument: it does not start as one left out would. -/
theorem takes_item {ofCall : Bool} (he : Derives .comparison ts e) :
    Takes (item finish ofCall (ts ++ rest)) e mid ↔
      Reads finish .comparison (ts ++ rest) e mid := by
  obtain ⟨token, ts, rfl, hseparator, hclose, -⟩ := he.exists_cons
  cases ofCall with
  | false => exact Iff.rfl
  | true =>
      have hfirst : ∀ token' ∈ (token :: ts ++ rest).head?,
          ¬ token'.isSeparator "," ∧ token'.kind ≠ .closeParen := by
        rintro _ ⟨⟩
        exact ⟨Bool.eq_false_iff.mp (Token.isSeparator_eq_false hseparator), hclose⟩
      exact takes_argument.trans (and_iff_right hfirst)

theorem extends_of_stops (hstops : p.Stops rest) (hpq : p.rank < q.rank) :
    Extends finish q e rest e rest :=
  (extends_stop (hstops q hpq)).mpr ⟨rfl, rfl⟩

/-- No reader goes on at a mark that is no operator. -/
theorem extends_of_kind {mark : Token} (h : mark.kind ≠ .operator) :
    Extends finish p e (mark :: rest) e (mark :: rest) := by
  refine (extends_stop ?_).mpr ⟨rfl, rfl⟩
  rintro _ ⟨⟩
  exact Phrase.endsAt_of_kind h

theorem goesOn_items_closing {ofCall : Bool} {closing : Token}
    (hclosing : closing.kind = .closeParen) :
    GoesOn (items finish ofCall (closing :: rest)) [] (closing :: rest) := by
  refine (goesOn_items_stop ?_).mpr ⟨rfl, rfl⟩
  rintro _ ⟨⟩
  exact Token.isSeparator_eq_false (by simp [hclosing])

mutual

/-- The reader takes the tokens of a derivation and goes on behind them. -/
theorem reads_of_derives {p : Phrase} {ts : List Token} {e : Expr} :
    Derives p ts e → ∀ {rest e' rest'}, p.Stops rest → Extends finish p e rest e' rest' →
      Reads finish p (ts ++ rest) e' rest'
  | @Derives.tighter _ q _ _ hpq he, rest, e', rest', hstops, h => by
      have hrank := Phrase.rank_of_tighter? hpq
      have hlt : p.rank < q.rank := hrank ▸ Nat.lt_succ_self _
      -- the tighter reader comes to its end at `rest`, and this one goes on from there
      have hq := reads_of_derives he (hstops.mono (Nat.le_of_lt hlt)) (extends_of_stops hstops hlt)
      by_cases hsigned : p = .signed
      · subst hsigned
        cases hpq
        obtain ⟨rfl, rfl⟩ := h
        obtain ⟨token, ts, rfl, -, -, hoperator⟩ := he.exists_cons
        refine (reads_signed ?_).mpr hq
        rintro _ ⟨⟩
        exact ⟨Token.isOperator_eq_false (hoperator hlt), Token.isOperator_eq_false (hoperator hlt)⟩
      · exact (reads_iff hpq hsigned).mpr ⟨e, rest, hq, h⟩
  | @Derives.binary _ q _ ts us sign l r hpq hop hl hsign hr, rest, e', rest', hstops, h => by
      have hlt : p.rank < q.rank := Phrase.rank_of_tighter? hpq ▸ Nat.lt_succ_self _
      have hright := reads_of_derives hr (hstops.mono (Nat.le_of_lt hlt))
        (extends_of_stops hstops hlt)
      rw [List.append_assoc, List.cons_append]
      -- the operator belongs to this phrase: everything tighter ends in front of it
      refine reads_of_derives hl (Phrase.stops_of_isOperator hsign (Phrase.symbol_mem_marks hop)) ?_
      exact (extends_binary hpq hop hsign).mpr ⟨r, rest, hright, h⟩
  | .percent he hsign, rest, e', rest', hstops, h => by
      rw [List.append_assoc, List.singleton_append]
      refine reads_of_derives he (Phrase.stops_of_isOperator hsign (List.mem_singleton_self _)) ?_
      exact (extends_percent hsign).mpr h
  | .minus hsign he, rest, e', rest', hstops, h => by
      obtain ⟨rfl, rfl⟩ := h
      have hoperand : Takes (signed finish _) _ rest' := reads_of_derives he hstops ⟨rfl, rfl⟩
      exact (takes_signed_minus hsign).mpr ⟨_, hoperand, rfl⟩
  | .plus hsign he, rest, e', rest', hstops, h =>
      (takes_signed_plus hsign).mpr (reads_of_derives he hstops h)
  | .atom he, rest, e', rest', hstops, h => by
      obtain ⟨rfl, rfl⟩ := h
      exact takes_operand.mpr (.atom he)
  | .noArguments hfunction hopening hclosing, rest, e', rest', hstops, h => by
      obtain ⟨rfl, rfl⟩ := h
      refine takes_operand.mpr (.call hfunction hopening ?_ hclosing)
      exact goesOn_arguments.mpr (.inl ⟨congrArg some hclosing, rfl, rfl⟩)
  | .call hfunction hopening hes hclosing, rest, e', rest', hstops, h => by
      obtain ⟨rfl, rfl⟩ := h
      obtain ⟨first, others, mid, rfl, hfirst, hothers⟩ := items_of_separated hes hclosing true
      rw [List.cons_append, List.cons_append, List.append_assoc]
      refine takes_operand.mpr (.call hfunction hopening ?_ hclosing)
      refine goesOn_arguments.mpr (.inr ⟨?_, first, mid, others, hfirst, hothers, rfl⟩)
      rw [ne_eq, Option.map_eq_some_iff]
      rintro ⟨token, htoken, hkind⟩
      exact ((takes_argument.mp hfirst).1 token htoken).2 hkind
  | @Derives.group opening closing ts e hopening he hclosing, rest, e', rest', hstops, h => by
      have hkind : closing.kind ≠ .operator := by simp [hclosing]
      have hfirst := @reads_of_derives _ ts e he (closing :: rest) _ _ (Phrase.stops_of_kind hkind)
        (extends_of_kind hkind)
      obtain ⟨rfl, rfl⟩ := h
      rw [List.cons_append, List.append_assoc]
      exact takes_operand.mpr
        (.group hopening hfirst (goesOn_items_closing hclosing) hclosing)
  | .union hopening hes hclosing, rest, e', rest', hstops, h => by
      obtain ⟨rfl, rfl⟩ := h
      obtain ⟨first, others, mid, hes, hfirst, hothers⟩ := items_of_separated hes hclosing false
      cases hes
      rw [List.cons_append, List.append_assoc]
      exact takes_operand.mpr (.group hopening hfirst hothers hclosing)
  | .table hopening ht hclosing, rest, e', rest', hstops, h => by
      obtain ⟨rfl, rfl⟩ := h
      refine takes_operand.mpr (.table hopening ?_)
      exact takes_table_iff.mpr ⟨_, _, by simp, hclosing, ht⟩

/-- The readers take expressions with commas between them up to a closing parenthesis. -/
theorem items_of_separated {ts : List Token} {es : List Expr} :
    Separated "," (Derives .comparison) ts es →
      ∀ {closing rest}, closing.kind = .closeParen → ∀ ofCall, ∃ first others mid,
        es = first :: others ∧ Takes (item finish ofCall (ts ++ closing :: rest)) first mid ∧
          GoesOn (items finish ofCall mid) others (closing :: rest)
  | @Separated.single _ _ _ _ e he, closing, rest, hclosing, ofCall => by
      have hkind : closing.kind ≠ .operator := by simp [hclosing]
      refine ⟨e, [], closing :: rest, rfl, (takes_item he).mpr ?_, goesOn_items_closing hclosing⟩
      exact reads_of_derives he (Phrase.stops_of_kind hkind) (extends_of_kind hkind)
  | @Separated.cons _ _ _ ts us mark e es he hmark hes, closing, rest, hclosing, ofCall => by
      have hkind : mark.kind ≠ .operator := by simp [(Token.isSeparator_iff.mp hmark).1]
      obtain ⟨first, others, mid, rfl, hfirst, hothers⟩ :=
        @items_of_separated us es hes closing rest hclosing ofCall
      rw [List.append_assoc, List.cons_append]
      refine ⟨e, first :: others, mark :: (us ++ closing :: rest), rfl, (takes_item he).mpr ?_, ?_⟩
      · exact reads_of_derives he (Phrase.stops_of_kind hkind) (extends_of_kind hkind)
      · exact (goesOn_items_comma hmark).mpr ⟨first, mid, others, hfirst, hothers, rfl⟩

end

end Grammar

theorem Expr.ofTokens_eq_ok {finish : Nat} {ts : List Token} {e : Expr} :
    ofTokens finish ts = .ok e ↔ Derives .comparison ts e := by
  unfold ofTokens
  simp only [unless_eq_ok, bind_eq_ok]
  constructor
  · rintro ⟨-, ⟨e', rest, hlt⟩, hfront, h⟩
    cases rest with
    | cons token rest => simp [throw_eq_ok] at h
    | nil =>
        obtain rfl : e' = e := Except.ok.inj h
        have hreads : Grammar.Reads finish .comparison ts e' [] := ⟨hlt, hfront⟩
        obtain ⟨used, hts, hused⟩ := hreads.derives
        rwa [hts, List.append_nil]
  · intro he
    have hstop : Grammar.Extends finish .comparison e [] e [] :=
      (Grammar.extends_stop (fun _ h => by cases h)).mpr ⟨rfl, rfl⟩
    have hreads := Grammar.reads_of_derives he Phrase.stops_nil hstop
    rw [List.append_nil] at hreads
    obtain ⟨hlt, hfront⟩ : Takes (Grammar.expr finish 0 ts) e [] := hreads
    obtain ⟨token, rest, rfl, -⟩ := he.exists_cons
    exact ⟨Bool.false_ne_true, _, hfront, rfl⟩

/-- Tokens are read as an expression exactly if the grammar derives it from all of them, and it
derives no other from them. -/
theorem Expr.ofTokens_iff_derives (finish : Nat) (ts : List Token) :
    (∀ e, ofTokens finish ts = .ok e ↔ Derives .comparison ts e) ∧
      ∀ e e', Derives .comparison ts e → Derives .comparison ts e' → e = e' := by
  have hiff : ∀ e, ofTokens finish ts = .ok e ↔ Derives .comparison ts e :=
    fun e => ofTokens_eq_ok
  refine ⟨hiff, fun e e' he he' => ?_⟩
  exact Except.ok.inj (((hiff e).mpr he).symm.trans ((hiff e').mpr he'))

end Formula

end Spreadsheet
