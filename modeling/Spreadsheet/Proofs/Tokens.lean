-- SUMMARY: The tokens of a text tile it, and a fault of the text lies between two characters of it.
import Mathlib.Data.List.Basic
import Spreadsheet.Formula.Token

/-!
# Tokens tile the text

The scanner looks ahead in several ways: for the end of a quoted name, for a second corner, for
the digits of an exponent. However far it looked, a lexeme takes at least one character and ends
inside the text, so the tokens lie side by side and leave nothing out. Where there is no lexeme,
the fault is at its first character or behind a name at the front.
-/

namespace Spreadsheet.Formula.Token

open Text

variable {cs : List Char} {c : Char} {n m : Nat} {kind : TokenKind} {side : Side} {cause : Cause}
  {position offset : Nat} {tokens : List Token}

/-! ## Lengths of what is scanned -/

theorem length_takeWhile_le (p : Char → Bool) (cs : List Char) :
    (cs.takeWhile p).length ≤ cs.length :=
  (List.takeWhile_prefix p).length_le

theorem length_takeWhile_pos {p : Char → Bool} (hc : p c) (cs : List Char) :
    0 < ((c :: cs).takeWhile p).length := by
  rw [List.takeWhile_cons_of_pos hc]
  exact Nat.succ_pos _

/-- What is scanned behind the first `n` characters ends inside the text. -/
theorem add_le_length (hn : n ≤ cs.length) (hm : m ≤ (cs.drop n).length) : n + m ≤ cs.length := by
  rw [List.length_drop] at hm
  omega

theorem markLength_le (cs : List Char) : markLength cs ≤ cs.length := by
  unfold markLength
  split
  · exact Nat.succ_le_succ (Nat.zero_le _)
  · exact Nat.zero_le _

theorem side?_length (h : side? cs = some (n, side)) : 0 < n ∧ n ≤ cs.length := by
  unfold side? at h
  dsimp only at h
  generalize hletters : (cs.drop (markLength cs)).takeWhile Char.isAlpha = letters at h
  generalize hbefore : markLength cs + letters.length = before at h
  generalize hdigits :
    (cs.drop (before + markLength (cs.drop before))).takeWhile Char.isDigit = digits at h
  have hle : before ≤ cs.length := by
    rw [← hbefore, ← hletters]
    exact add_le_length (markLength_le cs) (length_takeWhile_le _ _)
  have hend : before + markLength (cs.drop before) + digits.length ≤ cs.length := by
    rw [← hdigits]
    exact add_le_length (add_le_length hle (markLength_le _)) (length_takeWhile_le _ _)
  -- a row in the grid has digits, and a side without a row has letters
  have hrow (hgrid : (Grid.readRow? digits).isSome) : digits ≠ [] := by
    rintro rfl
    simp [Grid.readRow?, readNat?] at hgrid
  have hpos {ds : List Char} (hne : ds ≠ []) : 0 < ds.length := List.length_pos_iff.mpr hne
  split at h
  · split at h
    · rename_i hgrid
      cases h
      have := hpos (hrow hgrid)
      exact ⟨by omega, hend⟩
    · cases h
  · rename_i hne
    have hne : letters ≠ [] := by simpa using hne
    have := hpos hne
    split at h
    · cases h
    split at h
    · split at h
      · cases h
        exact ⟨by omega, hle⟩
      · cases h
    · split at h
      · cases h
        exact ⟨by omega, hend⟩
      · cases h

theorem sheetLength?_length (h : sheetLength? cs = some n) : 0 < n ∧ n ≤ cs.length := by
  unfold sheetLength? at h
  dsimp only at h
  obtain ⟨k, -, h⟩ := Option.bind_eq_some_iff.mp h
  split at h
  · rename_i hmark
    cases h
    have hne : cs.drop k ≠ [] := fun hnil => by simp [hnil] at hmark
    rw [ne_eq, List.drop_eq_nil_iff] at hne
    exact ⟨Nat.succ_pos k, by omega⟩
  · cases h

theorem sheetLength?_getD_le (cs : List Char) : (sheetLength? cs).getD 0 ≤ cs.length := by
  cases h : sheetLength? cs with
  | none => exact Nat.zero_le _
  | some n => exact (sheetLength?_length h).2

theorem secondCorner?_le {withSheet : Bool} (h : secondCorner? cs withSheet side = some m) :
    m ≤ cs.length := by
  unfold secondCorner? at h
  split at h
  · rename_i cs
    dsimp only at h
    generalize hsheet : (if withSheet = true then (sheetLength? cs).getD 0 else 0) = sheet at h
    have hle : sheet ≤ cs.length := by
      rw [← hsheet]
      split
      · exact sheetLength?_getD_le cs
      · exact Nat.zero_le _
    obtain ⟨⟨k, second⟩, hside, h⟩ := Option.bind_eq_some_iff.mp h
    split at h
    · cases h
      have := add_le_length hle (side?_length hside).2
      rw [List.length_cons]
      omega
    · cases h
  · cases h

theorem reference?_length (h : reference? cs = some (kind, n)) : 0 < n ∧ n ≤ cs.length := by
  unfold reference? at h
  dsimp only at h
  obtain ⟨⟨k, first⟩, hside, h⟩ := Option.bind_eq_some_iff.mp h
  obtain ⟨length, hlength, h⟩ := Option.bind_eq_some_iff.mp h
  obtain ⟨hpos, hle⟩ := side?_length hside
  have hone := add_le_length (sheetLength?_getD_le cs) hle
  split at h
  · cases h
  · cases h
    split at hlength
    · rename_i m hsecond
      cases hlength
      exact ⟨by omega, add_le_length hone (secondCorner?_le hsecond)⟩
    · split at hlength
      · cases hlength
        exact ⟨by omega, hone⟩
      · cases hlength

theorem textLength?_length (h : textLength? cs = some n) : n ≤ cs.length := by
  fun_induction textLength? cs generalizing n with
  | case1 => cases h
  | case2 cs ih =>
      obtain ⟨k, hk, rfl⟩ := Option.map_eq_some_iff.mp h
      exact Nat.succ_le_succ (Nat.succ_le_succ (ih hk))
  | case3 cs _ =>
      cases h
      exact Nat.succ_le_succ (Nat.zero_le _)
  | case4 c cs _ _ ih =>
      obtain ⟨k, hk, rfl⟩ := Option.map_eq_some_iff.mp h
      exact Nat.succ_le_succ (ih hk)

theorem errorLength?_length (h : errorLength? cs = some n) : 0 < n ∧ n ≤ cs.length := by
  unfold errorLength? at h
  obtain ⟨e, he, rfl⟩ := Option.map_eq_some_iff.mp h
  have htext := List.find?_some he
  have hlength := congrArg List.length (eq_of_beq htext)
  rw [String.length_toList, List.length_map, List.length_take] at hlength
  refine ⟨?_, by omega⟩
  cases e <;> decide

theorem exponentLength_le (cs : List Char) : exponentLength cs ≤ cs.length := by
  have hdigits (cs : List Char) (sign : Nat) (hsign : sign ≤ cs.length) :
      (if ((cs.drop sign).takeWhile Char.isDigit).length = 0 then 0
        else 1 + sign + ((cs.drop sign).takeWhile Char.isDigit).length) ≤ cs.length + 1 := by
    have := add_le_length hsign (length_takeWhile_le Char.isDigit (cs.drop sign))
    split <;> omega
  unfold exponentLength
  split
  · refine hdigits _ _ ?_
    split <;> simp
  · refine hdigits _ _ ?_
    split <;> simp
  · exact Nat.zero_le _

theorem numberLength_le (cs : List Char) : numberLength cs ≤ cs.length := by
  unfold numberLength
  dsimp only
  refine add_le_length (add_le_length (length_takeWhile_le _ _) ?_) (exponentLength_le _)
  split
  · rename_i ds hpoint
    rw [hpoint, List.length_cons, Nat.add_comm]
    exact Nat.succ_le_succ (length_takeWhile_le _ _)
  · exact Nat.zero_le _

theorem numberLength_pos (hc : c.isDigit = true ∨ c = '.') (cs : List Char) :
    0 < numberLength (c :: cs) := by
  unfold numberLength
  dsimp only
  obtain hdigit | rfl := hc
  · have := length_takeWhile_pos hdigit cs
    omega
  · rw [List.takeWhile_cons_of_neg (by decide)]
    simp only [List.length_nil, List.drop_zero]
    rw [Nat.zero_add, Nat.add_assoc]
    exact Nat.add_pos_left Nat.one_pos _

/-! ## Lexemes -/

/-- A lexeme takes at least one character and ends inside the text, and a fault lies between two
characters of it. -/
def Lands (cs : List Char) : Except (Nat × Cause) (TokenKind × Nat) → Prop
  | .ok (_, n) => 0 < n ∧ n ≤ cs.length
  | .error (offset, _) => ∃ k ≤ cs.length, offset = byteLength (cs.take k)

theorem lands_first (c : Char) (cs : List Char) (kind : TokenKind) :
    Lands (c :: cs) (.ok (kind, 1)) :=
  ⟨Nat.one_pos, Nat.succ_le_succ (Nat.zero_le _)⟩

theorem lands_fault (cs : List Char) (cause : Cause) : Lands cs (.error (0, cause)) :=
  ⟨0, Nat.zero_le _, rfl⟩

theorem lands_reference {found : TokenKind × Nat} (h : reference? cs = some found) :
    Lands cs (.ok found) :=
  reference?_length h

theorem lands_name {tail after : List Char} (h : cs = tail ++ after) (hc : tail ≠ []) :
    Lands cs ((nameKind tail after).map (·, tail.length)) := by
  subst h
  have hok (kind : TokenKind) : Lands (tail ++ after) (.ok (kind, tail.length)) :=
    ⟨List.length_pos_iff.mpr hc, by simp⟩
  unfold nameKind
  split
  · exact hok _
  · exact ⟨tail.length, by simp, by rw [List.take_left]⟩
  · dsimp only
    split
    · exact hok _
    · exact hok _

theorem lexeme_lands (cs : List Char) : Lands cs (lexeme cs) := by
  unfold lexeme
  split
  · exact lands_fault _ _
  rename_i c rest
  split
  · rename_i hblank
    exact ⟨length_takeWhile_pos hblank rest, length_takeWhile_le _ _⟩
  -- the cases by the first character: those written out look further than it, and behind them is
  -- what is left for numbers and names; any other character is a lexeme of its own
  split
  case h_1 =>
    split
    · rename_i n htext
      exact ⟨Nat.succ_pos n, Nat.succ_le_succ (textLength?_length htext)⟩
    · exact lands_fault _ _
  case h_2 =>
    split
    · rename_i n herror
      exact errorLength?_length herror
    · exact lands_fault _ _
  case h_3 =>
    split
    · rename_i found hfound
      exact lands_reference hfound
    · exact lands_fault _ _
  case h_19 =>
    split
    · exact ⟨Nat.two_pos, by simp⟩
    · exact ⟨Nat.two_pos, by simp⟩
    · exact lands_first _ _ _
  case h_20 =>
    split
    · exact ⟨Nat.two_pos, by simp⟩
    · exact lands_first _ _ _
  case h_21 =>
    split
    · rename_i hnumber
      split
      · rename_i found hfound
        exact lands_reference hfound
      · dsimp only
        split
        · exact lands_fault _ _
        · refine ⟨numberLength_pos ?_ rest, numberLength_le _⟩
          simpa using hnumber
    split
    · split
      · rename_i found hfound
        exact lands_reference hfound
      · split
        · exact lands_fault _ _
        · have hname : c :: rest = (c :: rest.takeWhile isWordChar) ++
              rest.drop (rest.takeWhile isWordChar).length := by
            rw [List.cons_append, List.prefix_iff_eq_append.mp (List.takeWhile_prefix _)]
          have hlands := lands_name hname (List.cons_ne_nil _ _)
          rwa [List.length_cons, Nat.add_comm] at hlands
    · exact lands_fault _ _
  all_goals exact lands_first _ _ _

/-! ## Tilings -/

/-- The tokens lie side by side on the text, whose first character is at `position`, and each is
the lexeme found where it starts. -/
inductive Tiles : (position : Nat) → List Char → List Token → Prop where
  | nil {position : Nat} : Tiles position [] []
  | cons {position : Nat} {text rest : List Char} {kind : TokenKind} {tokens : List Token} :
      text ≠ [] → lexeme (text ++ rest) = .ok (kind, text.length) →
      Tiles (position + byteLength text) rest tokens →
      Tiles position (text ++ rest) (⟨kind, String.ofList text, position⟩ :: tokens)

/-- Text is tiled by its tokens, or it has a fault between two of its characters. -/
theorem ofCharsFrom_tiles (position : Nat) (cs : List Char) :
    (∃ tokens, ofCharsFrom position cs = .ok tokens ∧ Tiles position cs tokens) ∨
      ∃ m before after, ofCharsFrom position cs = .error m ∧ cs = before ++ after ∧
        m.position = position + byteLength before := by
  fun_induction ofCharsFrom position cs with
  | case1 position => exact .inl ⟨[], rfl, .nil⟩
  | case2 position c cs offset cause hlexeme =>
      have hlands := lexeme_lands (c :: cs)
      rw [hlexeme] at hlands
      obtain ⟨k, -, rfl⟩ := hlands
      exact .inr ⟨_, _, _, rfl, (List.take_append_drop k _).symm, rfl⟩
  | case3 position c cs kind n hlexeme text ih =>
      have hlands := lexeme_lands (c :: cs)
      rw [hlexeme] at hlands
      obtain ⟨hpos, hle⟩ := hlands
      obtain ⟨k, rfl⟩ : ∃ k, n = k + 1 := ⟨n - 1, by omega⟩
      have hcs : c :: cs = text ++ cs.drop k := by
        simp [text]
      have hlength : text.length = k + 1 := by
        simp only [List.length_cons] at hle
        simp only [text, Nat.add_sub_cancel, List.length_cons, List.length_take]
        omega
      obtain ⟨tokens, htokens, htiles⟩ | ⟨m, before, after, hm, hrest, hposition⟩ := ih
      · refine .inl ⟨_, congrArg (Except.map _) htokens, ?_⟩
        rw [hcs]
        exact .cons (List.cons_ne_nil _ _) (hlength ▸ hcs ▸ hlexeme) htiles
      · refine .inr ⟨m, text ++ before, after, congrArg (Except.map _) hm, ?_, ?_⟩
        · rw [hcs, List.append_assoc]
          exact congrArg _ hrest
        · rw [hposition, byteLength_append, Nat.add_assoc]

theorem utf8ByteSize_ofList (cs : List Char) : (String.ofList cs).utf8ByteSize = byteLength cs := by
  induction cs with
  | nil => rfl
  | cons c cs ih =>
      rw [String.ofList_cons, String.utf8ByteSize_append, String.utf8ByteSize_singleton, ih]
      rfl

theorem byteLength_pos (hne : cs ≠ []) : 0 < byteLength cs := by
  cases cs with
  | nil => exact absurd rfl hne
  | cons c cs => exact Nat.add_pos_left c.utf8Size_pos _

namespace Tiles

theorem text_ne_empty (h : Tiles position cs tokens) : ∀ token ∈ tokens, token.text ≠ "" := by
  induction h with
  | nil => exact List.forall_mem_nil _
  | cons hne _ _ ih =>
      refine List.forall_mem_cons.mpr ⟨fun hempty => hne ?_, ih⟩
      have htext := congrArg String.toList hempty
      rwa [String.toList_ofList] at htext

/-- What some tokens at the front tile stands before what the others do. -/
theorem behind {before after : List Token} (h : Tiles position cs (before ++ after)) :
    ∃ cs₁ cs₂, cs = cs₁ ++ cs₂ ∧ String.join (before.map Token.text) = String.ofList cs₁ ∧
      Tiles (position + byteLength cs₁) cs₂ after := by
  induction before generalizing position cs with
  | nil => exact ⟨[], cs, rfl, rfl, h⟩
  | cons token before ih =>
      cases h with
      | @cons _ text rest kind _ _ _ hrest =>
          obtain ⟨cs₁, cs₂, rfl, hjoin, htiles⟩ := ih hrest
          refine ⟨text ++ cs₁, cs₂, (List.append_assoc _ _ _).symm, ?_, ?_⟩
          · rw [List.map_cons, String.join_cons, hjoin, String.ofList_append]
          · rwa [byteLength_append, ← Nat.add_assoc]

theorem join (h : Tiles position cs tokens) :
    String.join (tokens.map Token.text) = String.ofList cs := by
  rw [← List.append_nil tokens] at h
  obtain ⟨cs₁, cs₂, rfl, hjoin, hnil⟩ := h.behind
  cases hnil
  rw [hjoin, List.append_nil]

theorem pairwise_position (h : Tiles position cs tokens) :
    tokens.Pairwise (·.position < ·.position) ∧ ∀ token ∈ tokens, position ≤ token.position := by
  induction h with
  | nil => exact ⟨.nil, List.forall_mem_nil _⟩
  | cons hne _ _ ih =>
      obtain ⟨hpairwise, hle⟩ := ih
      have hpos := byteLength_pos hne
      refine ⟨List.pairwise_cons.mpr ⟨fun token htoken => ?_, hpairwise⟩,
        List.forall_mem_cons.mpr ⟨Nat.le_refl _, fun token htoken => ?_⟩⟩
      · exact Nat.lt_of_lt_of_le (Nat.lt_add_of_pos_right hpos) (hle token htoken)
      · exact Nat.le_trans (Nat.le_add_right _ _) (hle token htoken)

end Tiles

/-- **Tokens tile the text.** Every text is cut into tokens or refused. The tokens are not empty,
together they are the text, and each is the lexeme that is found in the bytes behind those of the
tokens before it, where its position says, so positions grow. A refused text has its fault at the
start of a character or at the end. -/
theorem ofText_tiles (s : String) :
    (∃ tokens, ofText s = .ok tokens ∧ (∀ token ∈ tokens, token.text ≠ "") ∧
        String.join (tokens.map Token.text) = s ∧
        (∀ before token after, tokens = before ++ token :: after →
          token.position = (String.join (before.map Token.text)).utf8ByteSize ∧
            lexeme (String.join ((token :: after).map Token.text)).toList =
              .ok (token.kind, token.text.length)) ∧
        tokens.Pairwise (·.position < ·.position)) ∨
      ∃ m, ofText s = .error m ∧ String.Pos.Raw.IsValid s ⟨m.position⟩ := by
  obtain ⟨tokens, htokens, htiles⟩ | ⟨m, before, after, hm, hs, hposition⟩ :=
    ofCharsFrom_tiles 0 s.toList
  · refine .inl ⟨tokens, htokens, htiles.text_ne_empty, ?_, ?_, htiles.pairwise_position.1⟩
    · rw [htiles.join, String.ofList_toList]
    · rintro before token after rfl
      obtain ⟨cs₁, cs₂, -, hjoin, hbehind⟩ := htiles.behind
      have hrest := hbehind.join
      cases hbehind with
      | cons _ hlexeme _ =>
          refine ⟨?_, ?_⟩
          · rw [hjoin, utf8ByteSize_ofList, Nat.zero_add]
          · rw [hrest, String.toList_ofList, hlexeme, String.length_ofList]
  · refine .inr ⟨m, hm, String.Pos.Raw.isValid_iff_exists_append.mpr ?_⟩
    refine ⟨String.ofList before, String.ofList after, ?_, ?_⟩
    · rw [← String.ofList_append, ← hs, String.ofList_toList]
    · rw [hposition, Nat.zero_add, ← utf8ByteSize_ofList]
      rfl

end Spreadsheet.Formula.Token
