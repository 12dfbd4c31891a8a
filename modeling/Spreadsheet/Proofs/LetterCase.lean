-- SUMMARY: The scanner of tokens does not see the case of ASCII letters.
import Spreadsheet.Proofs.Parts

/-!
# Scanning and letter case

Text in lower case is scanned as the text itself: the same lexeme is found at its front, of the same
kind and length. Each scanner asks of a character which class it is in, or whether it is one of some
marks, and neither depends on the case of an ASCII letter. So texts that differ in case only have
their tokens in the same places.
-/

namespace Spreadsheet

/-! ## Characters -/

namespace Text

variable {c d : Char} {cs : List Char} {p : Char → Bool}

theorem toLower_of_not_isUpper (h : c.isUpper = false) : c.toLower = c :=
  dif_neg (of_decide_eq_false h)

/-- What is the same for both cases of each letter of the alphabet does not see case. -/
theorem eq_of_toLower {β : Type} {f : Char → β}
    (h : ∀ n < 26, f (Char.ofNat (65 + n)).toLower = f (Char.ofNat (65 + n))) (c : Char) :
    f c.toLower = f c := by
  cases hc : c.isUpper with
  | false => rw [toLower_of_not_isUpper hc]
  | true =>
      obtain ⟨hlow, hhigh⟩ : 65 ≤ c.toNat ∧ c.toNat ≤ 90 := of_decide_eq_true hc
      have hletter := h (c.toNat - 65) (by omega)
      rwa [Nat.add_sub_cancel' hlow, Char.ofNat_toNat] at hletter

theorem isDigit_toLower (c : Char) : c.toLower.isDigit = c.isDigit := eq_of_toLower (by decide) c

theorem isWordChar_toLower (c : Char) : isWordChar c.toLower = isWordChar c :=
  eq_of_toLower (by decide) c

theorem isBlank_toLower (c : Char) : isBlank c.toLower = isBlank c :=
  eq_of_toLower (by decide) c

theorem utf8Size_toLower (c : Char) : c.toLower.utf8Size = c.utf8Size :=
  eq_of_toLower (by decide) c

theorem isAlpha_toLower (c : Char) : c.toLower.isAlpha = c.isAlpha :=
  eq_of_toLower (by decide) c

theorem toUpper_toLower (c : Char) : c.toLower.toUpper = c.toUpper :=
  eq_of_toLower (by decide) c

/-- Only letters have case. -/
theorem toLower_of_not_isAlpha (h : c.isAlpha = false) : c.toLower = c :=
  toLower_of_not_isUpper (Bool.or_eq_false_iff.mp h).1

/-- A character that is no letter is the lower case of itself only. -/
theorem toLower_eq_iff (hd : d.isAlpha = false) : c.toLower = d ↔ c = d := by
  cases hc : c.isAlpha with
  | false => rw [toLower_of_not_isAlpha hc]
  | true =>
    constructor
    · rintro rfl
      rw [isAlpha_toLower, hc] at hd
      cases hd
    · rintro rfl
      rw [hc] at hd
      cases hd

/-! ## Text -/

/-- The text with its ASCII letters in lower case. -/
def lowered (cs : List Char) : List Char := cs.map Char.toLower

@[simp] theorem lowered_nil : lowered [] = [] := rfl

@[simp] theorem lowered_cons (c : Char) (cs : List Char) :
    lowered (c :: cs) = c.toLower :: lowered cs := rfl

@[simp] theorem length_lowered (cs : List Char) : (lowered cs).length = cs.length :=
  List.length_map _

theorem lowered_append (cs ds : List Char) : lowered (cs ++ ds) = lowered cs ++ lowered ds :=
  List.map_append

theorem lowered_lowered (cs : List Char) : lowered (lowered cs) = lowered cs := by
  rw [lowered, lowered, List.map_map]
  exact List.map_congr_left fun c _ => eq_of_toLower (by decide) c

theorem drop_lowered (n : Nat) (cs : List Char) : (lowered cs).drop n = lowered (cs.drop n) :=
  List.map_drop.symm

theorem byteLength_lowered (cs : List Char) : byteLength (lowered cs) = byteLength cs := by
  induction cs with
  | nil => rfl
  | cons c cs ih => rw [lowered_cons, byteLength_cons, byteLength_cons, utf8Size_toLower, ih]

theorem head?_lowered (hd : d.isAlpha = false) (cs : List Char) :
    (lowered cs).head? = some d ↔ cs.head? = some d := by
  cases cs with
  | nil => rfl
  | cons c cs => simp [toLower_eq_iff hd]

theorem mem_lowered (hd : d.isAlpha = false) : d ∈ lowered cs ↔ d ∈ cs := by
  simp [lowered, toLower_eq_iff hd]

theorem takeWhile_lowered (hp : ∀ c, p c.toLower = p c) (cs : List Char) :
    (lowered cs).takeWhile p = lowered (cs.takeWhile p) := by
  rw [lowered, List.takeWhile_map]
  congr 1
  exact congrArg (List.takeWhile · cs) (funext hp)

theorem takeWhile_isDigit_lowered (cs : List Char) :
    (lowered cs).takeWhile Char.isDigit = cs.takeWhile Char.isDigit := by
  rw [takeWhile_lowered isDigit_toLower, lowered]
  refine (List.map_congr_left fun c hc => ?_).trans (List.map_id _)
  exact toLower_of_not_isAlpha
    (not_isAlpha_of_isDigit (List.all_eq_true.mp List.all_takeWhile c hc))

end Text

/-! ## Columns -/

namespace Grid

open Text

theorem letterNumber_toLower (c : Char) : letterNumber c.toLower = letterNumber c := by
  rw [letterNumber, toUpper_toLower, letterNumber]

theorem columnFrom_lowered {cs : List Char} (h : ∀ c ∈ cs, c.isAlpha) (n : Nat) :
    columnFrom n (lowered cs) = columnFrom n cs := by
  induction cs generalizing n with
  | nil => rfl
  | cons c cs ih =>
      obtain ⟨hc, hcs⟩ := List.forall_mem_cons.mp h
      have hc' : c.toLower.isAlpha := by rwa [isAlpha_toLower]
      rw [lowered_cons, columnFrom, if_pos hc', columnFrom, if_pos hc, letterNumber_toLower,
        ih hcs]

theorem columnOfLetters_lowered {cs : List Char} (h : ∀ c ∈ cs, c.isAlpha) {col : Nat} :
    columnOfLetters (lowered cs) = .ok col ↔ columnOfLetters cs = .ok col := by
  have hempty : (lowered cs).isEmpty = cs.isEmpty := by cases cs <;> rfl
  simp only [columnOfLetters, unless_eq_ok, bind_eq_ok, pure_eq_ok, hempty, byteLength_lowered,
    columnFrom_lowered h]

theorem isOk_columnOfLetters_lowered {cs : List Char} (h : ∀ c ∈ cs, c.isAlpha) :
    (columnOfLetters (lowered cs)).isOk = (columnOfLetters cs).isOk := by
  cases hcol : columnOfLetters cs with
  | ok col =>
      rw [(columnOfLetters_lowered h).mpr hcol]
  | error fault =>
      cases hcol' : columnOfLetters (lowered cs) with
      | ok col => cases hcol.symm.trans ((columnOfLetters_lowered h).mp hcol')
      | error fault' => rfl

end Grid

/-! ## References -/

namespace Formula.Token

open Text

variable {cs : List Char} {found : TokenKind × Nat}

theorem markLength_eq (cs : List Char) : markLength cs = if cs.head? = some '$' then 1 else 0 := by
  unfold markLength
  split
  · rfl
  · rename_i hmark
    rw [if_neg]
    intro hhead
    obtain ⟨rest, rfl⟩ := List.head?_eq_some_iff.mp hhead
    exact hmark rest rfl

theorem markLength_lowered (cs : List Char) : markLength (lowered cs) = markLength cs := by
  simp only [markLength_eq, @head?_lowered '$' (by decide)]

theorem side?_lowered (cs : List Char) : side? (lowered cs) = side? cs := by
  have hletters (ds : List Char) : ∀ c ∈ ds.takeWhile Char.isAlpha, c.isAlpha :=
    List.all_eq_true.mp List.all_takeWhile
  unfold side?
  simp only [markLength_lowered, drop_lowered, takeWhile_lowered isAlpha_toLower,
    takeWhile_isDigit_lowered, length_lowered, Grid.isOk_columnOfLetters_lowered (hletters _)]
  simp only [lowered, List.isEmpty_map]

theorem quotedLength?_lowered (cs : List Char) : quotedLength? (lowered cs) = quotedLength? cs := by
  fun_induction quotedLength? cs with
  | case1 => rfl
  | case2 cs ih =>
      rw [← ih]
      rfl
  | case3 cs h =>
      cases cs with
      | nil => rfl
      | cons d cs =>
          have hd : d.toLower ≠ '\'' := fun hd =>
            h cs (congrArg (· :: cs) ((toLower_eq_iff (by decide)).mp hd))
          simp [quotedLength?, hd]
  | case4 c cs h h' ih =>
      have hc : c.toLower ≠ '\'' := fun hc => h' ((toLower_eq_iff (by decide)).mp hc)
      simp [quotedLength?, hc, ih]

theorem sheetLength?_lowered (cs : List Char) : sheetLength? (lowered cs) = sheetLength? cs := by
  have hbang (n : Nat) :
      ((lowered cs).drop n).head? = some '!' ↔ (cs.drop n).head? = some '!' := by
    rw [drop_lowered, head?_lowered (by decide)]
  by_cases hquote : cs.head? = some '\''
  · obtain ⟨cs, rfl⟩ := List.head?_eq_some_iff.mp hquote
    unfold sheetLength?
    simp only [← hbang]
    rw [show lowered ('\'' :: cs) = '\'' :: lowered cs from rfl]
    simp only [quotedLength?_lowered]
  · have hquote' : (lowered cs).head? ≠ some '\'' :=
      fun h => hquote ((head?_lowered (by decide) cs).mp h)
    rw [Qualifier.sheetLength?_of_head hquote, Qualifier.sheetLength?_of_head hquote',
      takeWhile_lowered isWordChar_toLower, length_lowered]
    simp only [hbang]

theorem continuesName_lowered (cs : List Char) : continuesName (lowered cs) = continuesName cs := by
  have hmark {d : Char} (hd : d.isAlpha = false) (c : Char) : (c.toLower == d) = (c == d) := by
    rw [Bool.eq_iff_iff, beq_iff_eq, beq_iff_eq, toLower_eq_iff hd]
  cases cs with
  | nil => rfl
  | cons c cs =>
      simp only [lowered_cons, continuesName, isWordChar_toLower, @hmark '(' (by decide),
        @hmark '!' (by decide), @hmark '$' (by decide)]

theorem secondCorner?_lowered (cs : List Char) (withSheet : Bool) (first : Side) :
    secondCorner? (lowered cs) withSheet first = secondCorner? cs withSheet first := by
  cases cs with
  | nil => rfl
  | cons c cs =>
      by_cases hc : c = ':'
      · subst hc
        have hcolon : lowered (':' :: cs) = ':' :: lowered cs := rfl
        rw [hcolon]
        simp only [secondCorner?, sheetLength?_lowered, drop_lowered, side?_lowered,
          continuesName_lowered]
      · have hc' : c.toLower ≠ ':' := fun h => hc ((toLower_eq_iff (by decide)).mp h)
        simp [secondCorner?, hc, hc']

theorem reference?_lowered (cs : List Char) : reference? (lowered cs) = reference? cs := by
  unfold reference?
  simp only [sheetLength?_lowered, drop_lowered, side?_lowered, secondCorner?_lowered,
    continuesName_lowered]

/-! ## Other tokens -/

theorem textLength?_lowered (cs : List Char) : textLength? (lowered cs) = textLength? cs := by
  fun_induction textLength? cs with
  | case1 => rfl
  | case2 cs ih =>
      rw [← ih]
      rfl
  | case3 cs h =>
      cases cs with
      | nil => rfl
      | cons d cs =>
          have hd : d.toLower ≠ '"' := fun hd =>
            h cs (congrArg (· :: cs) ((toLower_eq_iff (by decide)).mp hd))
          simp [textLength?, hd]
  | case4 c cs h h' ih =>
      have hc : c.toLower ≠ '"' := fun hc => h' ((toLower_eq_iff (by decide)).mp hc)
      simp [textLength?, hc, ih]

theorem errorLength?_lowered (cs : List Char) : errorLength? (lowered cs) = errorLength? cs := by
  have hupper (n : Nat) :
      ((lowered cs).take n).map Char.toUpper = (cs.take n).map Char.toUpper := by
    rw [lowered, ← List.map_take, List.map_map]
    exact List.map_congr_left fun c _ => toUpper_toLower c
  simp only [errorLength?, hupper]

/-- The length of the sign at the front. -/
def signLength : List Char → Nat
  | '+' :: _ | '-' :: _ => 1
  | _ => 0

/-- The length of the point at the front and of the digits behind it. -/
def fractionLength : List Char → Nat
  | '.' :: cs => 1 + (cs.takeWhile Char.isDigit).length
  | _ => 0

theorem signLength_lowered (cs : List Char) : signLength (lowered cs) = signLength cs := by
  cases cs with
  | nil => rfl
  | cons c cs =>
      by_cases hplus : c = '+'
      · subst hplus
        rfl
      · by_cases hminus : c = '-'
        · subst hminus
          rfl
        · have hplus' := mt (toLower_eq_iff (by decide)).mp hplus
          have hminus' := mt (toLower_eq_iff (by decide)).mp hminus
          simp [signLength, hplus, hminus, hplus', hminus']

theorem fractionLength_lowered (cs : List Char) :
    fractionLength (lowered cs) = fractionLength cs := by
  cases cs with
  | nil => rfl
  | cons c cs =>
      by_cases hpoint : c = '.'
      · subst hpoint
        rw [show lowered ('.' :: cs) = '.' :: lowered cs from rfl]
        simp only [fractionLength, takeWhile_isDigit_lowered]
      · have hpoint' := mt (toLower_eq_iff (by decide)).mp hpoint
        simp [fractionLength, hpoint, hpoint']

theorem exponentLength_cons (c : Char) (cs : List Char) :
    exponentLength (c :: cs) = if c == 'e' || c == 'E' then
      let digits := ((cs.drop (signLength cs)).takeWhile Char.isDigit).length
      if digits = 0 then 0 else 1 + signLength cs + digits
    else 0 := by
  by_cases he : c = 'e'
  · subst he
    rfl
  · by_cases hE : c = 'E'
    · subst hE
      rfl
    · simp [exponentLength, he, hE]

theorem exponentLength_lowered (cs : List Char) :
    exponentLength (lowered cs) = exponentLength cs := by
  cases cs with
  | nil => rfl
  | cons c cs =>
      have hletter : (c.toLower == 'e' || c.toLower == 'E') = (c == 'e' || c == 'E') :=
        @eq_of_toLower Bool (fun c => c == 'e' || c == 'E') (by decide) c
      simp only [lowered_cons, exponentLength_cons, hletter, drop_lowered, signLength_lowered,
        takeWhile_isDigit_lowered]

theorem numberLength_eq (cs : List Char) :
    numberLength cs =
      let whole := (cs.takeWhile Char.isDigit).length
      let fraction := fractionLength (cs.drop whole)
      whole + fraction + exponentLength (cs.drop (whole + fraction)) := rfl

theorem numberLength_lowered (cs : List Char) : numberLength (lowered cs) = numberLength cs := by
  simp only [numberLength_eq, takeWhile_isDigit_lowered, drop_lowered, fractionLength_lowered,
    exponentLength_lowered]

/-- Whether there is a name, and of which kind, shows in lower case too. -/
theorem nameKind_lowered (cs after : List Char) {kind : TokenKind} :
    nameKind (lowered cs) (lowered after) = .ok kind ↔ nameKind cs after = .ok kind := by
  have hword (word : String) : equalIgnoringCase (String.ofList (lowered cs)) word =
      equalIgnoringCase (String.ofList cs) word := by
    rw [Bool.eq_iff_iff, equalIgnoringCase_iff, equalIgnoringCase_iff, String.toList_ofList,
      String.toList_ofList, ← lowered, lowered_lowered, lowered]
  cases after with
  | nil => simp only [lowered_nil, nameKind, hword]
  | cons c after =>
      by_cases hparen : c = '('
      · subst hparen
        exact Iff.rfl
      · by_cases hbang : c = '!'
        · subst hbang
          exact ⟨nofun, nofun⟩
        · have hparen' := mt (toLower_eq_iff (by decide)).mp hparen
          have hbang' := mt (toLower_eq_iff (by decide)).mp hbang
          simp [nameKind, hparen, hparen', hbang, hbang', hword]

/-- The name at the front, if it is one. -/
def nameLexeme (c : Char) (cs : List Char) : Except (Nat × Cause) (TokenKind × Nat) :=
  let tail := cs.takeWhile isWordChar
  (nameKind (c :: tail) (cs.drop tail.length)).map (·, 1 + tail.length)

theorem nameLexeme_lowered (c : Char) (cs : List Char) :
    nameLexeme c.toLower (lowered cs) = .ok found ↔ nameLexeme c cs = .ok found := by
  have hkind (kind : TokenKind) := @nameKind_lowered (c :: cs.takeWhile isWordChar)
    (cs.drop (cs.takeWhile isWordChar).length) kind
  simp only [nameLexeme, takeWhile_lowered isWordChar_toLower, length_lowered, drop_lowered,
    map_eq_ok, lowered_cons] at hkind ⊢
  simp only [hkind]

/-- A letter starts a reference or a name. -/
theorem lexeme_of_isAlpha {c : Char} (hc : c.isAlpha) (cs : List Char) :
    lexeme (c :: cs) = match reference? (c :: cs) with
      | some found => .ok found
      | none => nameLexeme c cs := by
  have hdigit : c.isDigit = false := by
    refine Bool.eq_false_iff.mpr fun hdigit => ?_
    rw [not_isAlpha_of_isDigit hdigit] at hc
    cases hc
  have hword : isWordChar c := by
    simp [isWordChar, isLetterOrNumeral, isLetter_of_isAlpha hc]
  have hblank : isBlank c = false := isBlank_of_isWordChar hword
  unfold lexeme
  dsimp only
  rw [if_neg (by simp [hblank])]
  split
  case h_21 =>
    have hpoint : c ≠ '.' := by
      rintro rfl
      exact absurd hc (by decide)
    have hmark : c ≠ '$' := by
      rintro rfl
      exact absurd hc (by decide)
    simp only [hdigit, startsWord, isLetter_of_isAlpha hc, beq_eq_false_iff_ne.mpr hpoint,
      beq_eq_false_iff_ne.mpr hmark, Bool.true_or, Bool.or_false, Bool.false_eq_true,
      if_false, if_true]
    cases reference? (c :: cs) <;> rfl
  all_goals exact absurd hc (by decide)

/-- The first token is of the same kind and length in lower case. -/
theorem lexeme_lowered (cs : List Char) :
    lexeme (lowered cs) = .ok found ↔ lexeme cs = .ok found := by
  cases cs with
  | nil => exact Iff.rfl
  | cons c cs =>
      have hreference := reference?_lowered (c :: cs)
      rw [lowered_cons] at hreference ⊢
      -- only a letter changes; any other character stays, and so does the branch that it leads to
      by_cases halpha : c.isAlpha
      · have halpha' : c.toLower.isAlpha := by rwa [isAlpha_toLower]
        rw [lexeme_of_isAlpha halpha, lexeme_of_isAlpha halpha', hreference]
        cases reference? (c :: cs) with
        | some found => exact Iff.rfl
        | none => exact nameLexeme_lowered c cs
      · have hc : c.toLower = c := toLower_of_not_isAlpha (Bool.eq_false_iff.mpr halpha)
        have hnumber := numberLength_lowered (c :: cs)
        have herror := errorLength?_lowered (c :: cs)
        have hblank := takeWhile_lowered isBlank_toLower (c :: cs)
        have hname := @nameLexeme_lowered found c cs
        rw [lowered_cons, hc] at hnumber herror hblank
        rw [hc] at hreference hname ⊢
        unfold lexeme
        dsimp only
        rw [hreference, hnumber, herror, hblank]
        split
        · rw [length_lowered]
        · split
          case h_1 => simp only [textLength?_lowered]
          case h_19 =>
            cases cs with
            | nil => rfl
            | cons d cs =>
                by_cases hequals : d = '='
                · subst hequals
                  rfl
                · by_cases hgreater : d = '>'
                  · subst hgreater
                    rfl
                  · have hequals' := mt (toLower_eq_iff (by decide)).mp hequals
                    have hgreater' := mt (toLower_eq_iff (by decide)).mp hgreater
                    simp [hequals, hequals', hgreater, hgreater']
          case h_20 =>
            cases cs with
            | nil => rfl
            | cons d cs =>
                by_cases hequals : d = '='
                · subst hequals
                  rfl
                · have hequals' := mt (toLower_eq_iff (by decide)).mp hequals
                  simp [hequals, hequals']
          case h_21 =>
            split
            · rfl
            · split
              · split
                · rfl
                · split
                  · rfl
                  · exact hname
              · rfl
          all_goals rfl

end Formula.Token

end Spreadsheet
