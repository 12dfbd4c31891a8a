-- SUMMARY: Cutting text at a mark, and whole numbers written in decimal digits.

/-! # Cutting text and reading whole numbers

Text is cut at the first or the last occurrence of a mark, which belongs to neither
part. Whole numbers are runs of ASCII digits; a signed number has to fit a 64-bit word.
-/

namespace Spreadsheet.Text

/-- What stands before and after the first `mark`. -/
def splitFirst? (mark : Char) : List Char → Option (List Char × List Char)
  | [] => none
  | c :: cs =>
    if c = mark then some ([], cs)
    else (splitFirst? mark cs).map fun (before, after) => (c :: before, after)

/-- What stands before and after the last `mark`. -/
def splitLast? (mark : Char) : List Char → Option (List Char × List Char)
  | [] => none
  | c :: cs =>
    match splitLast? mark cs with
    | some (before, after) => some (c :: before, after)
    | none => if c = mark then some ([], cs) else none

theorem splitFirst?_eq_some {mark : Char} {cs before after : List Char}
    (h : splitFirst? mark cs = some (before, after)) :
    cs = before ++ mark :: after ∧ mark ∉ before := by
  induction cs generalizing before with
  | nil => simp [splitFirst?] at h
  | cons c cs ih =>
    simp only [splitFirst?] at h
    split at h
    · simp_all
    · obtain ⟨⟨b, a⟩, hba, h⟩ := Option.map_eq_some_iff.mp h
      simp only [Prod.mk.injEq] at h
      obtain ⟨rfl, rfl⟩ := h
      obtain ⟨rfl, hb⟩ := ih hba
      simp_all [@eq_comm Char mark]

theorem splitFirst?_append {mark : Char} {before : List Char} (h : mark ∉ before)
    (after : List Char) : splitFirst? mark (before ++ mark :: after) = some (before, after) := by
  induction before with
  | nil => simp [splitFirst?]
  | cons c cs ih => simp_all [splitFirst?, @eq_comm Char mark]

theorem splitFirst?_eq_none_iff {mark : Char} {cs : List Char} :
    splitFirst? mark cs = none ↔ mark ∉ cs := by
  induction cs with
  | nil => simp [splitFirst?]
  | cons c cs ih => by_cases h : c = mark <;> simp_all [splitFirst?, @eq_comm Char mark]

theorem splitLast?_eq_none_iff {mark : Char} {cs : List Char} :
    splitLast? mark cs = none ↔ mark ∉ cs := by
  induction cs with
  | nil => simp [splitLast?]
  | cons c cs ih =>
    simp only [splitLast?]
    split <;> rename_i h
    · have : ¬ mark ∉ cs := fun hm => by simp [ih.mpr hm] at h
      simp_all
    · by_cases hc : c = mark <;> simp_all [@eq_comm Char mark]

theorem splitLast?_append {mark : Char} {after : List Char} (h : mark ∉ after)
    (before : List Char) :
    splitLast? mark (before ++ mark :: after) = some (before, after) := by
  induction before with
  | nil => simp [splitLast?, splitLast?_eq_none_iff.mpr h]
  | cons c cs ih => simp [splitLast?, ih]

/-- The length of text in bytes of its UTF-8 form. -/
def byteLength : List Char → Nat
  | [] => 0
  | c :: cs => c.utf8Size + byteLength cs

@[simp]
theorem byteLength_nil : byteLength [] = 0 := rfl

@[simp]
theorem byteLength_cons (c : Char) (cs : List Char) :
    byteLength (c :: cs) = c.utf8Size + byteLength cs := rfl

@[simp]
theorem byteLength_append (cs ds : List Char) :
    byteLength (cs ++ ds) = byteLength cs + byteLength ds := by
  induction cs with
  | nil => simp
  | cons c cs ih => simp [ih, Nat.add_assoc]

/-! ## Whole numbers -/

/-- The number written by one or more ASCII digits. -/
def readNat? (cs : List Char) : Option Nat :=
  if !cs.isEmpty && cs.all Char.isDigit then some (Nat.ofDigitChars 10 cs 0) else none

theorem readNat?_toDigits (n : Nat) : readNat? (Nat.toDigits 10 n) = some n := by
  have hne : (Nat.toDigits 10 n).isEmpty = false := by
    simp [List.isEmpty_eq_false_iff, Nat.toDigits_ne_nil]
  have hall : (Nat.toDigits 10 n).all Char.isDigit = true :=
    List.all_eq_true.mpr fun c hc => Nat.isDigit_of_mem_toDigits (by decide) (by decide) hc
  simp [readNat?, hne, hall, Nat.ofDigitChars_toDigits]

/-- The least and the greatest number of a 64-bit word. -/
def minWord : Int := -9223372036854775808

def maxWord : Int := 9223372036854775807

/-- The number, if it fits a 64-bit word. -/
def word? (n : Int) : Option Int := if minWord ≤ n ∧ n ≤ maxWord then some n else none

/-- The number of a 64-bit word nearest to `n`. -/
def clampWord (n : Int) : Int := max minWord (min maxWord n)

/-- A word in decimal digits after an optional sign. -/
def readWord? : List Char → Option Int
  | '-' :: cs => (readNat? cs).bind fun n => word? (-n)
  | '+' :: cs => (readNat? cs).bind fun n => word? n
  | cs => (readNat? cs).bind fun n => word? n

end Spreadsheet.Text
