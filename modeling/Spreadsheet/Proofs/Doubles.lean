-- SUMMARY: Doubles that stay finite: a negated one, one divided by a hundred, and a count.
import Mathlib.Algebra.Group.Nat.Defs
import Spreadsheet.Number

/-!
# Finite doubles

A double is finite unless its exponent has all bits set. What is packed into a double does not
overflow if its exponent is at most that of the greatest doubles, and rounding keeps the exponent
there if the bits of the mantissa that it drops are few enough. So a finite double stays finite when
it is negated or divided by a hundred, and a count is a finite double.
-/

namespace Spreadsheet.Double

open Float.Model
open UnpackedFloat hiding unpack pack ofUInt64 ofNat ofInt round normalize

/-- The exponent of the greatest doubles, whose mantissas are whole numbers of 53 bits. -/
def maxExponent : Int := 971

/-- Packed as a double, the parts do not overflow. -/
def Fits : UnpackedFloat → Prop
  | .zero _ => True
  | .finite _ _ exponent _ => exponent ≤ maxExponent
  | .infinity _ | .notANumber => False

/-! ## Packing -/

variable {bits : BitVec Format.binary64.numBits} {f : UnpackedFloat} {x : Float}

/-- Bits whose exponent has all bits set are those of an infinity, or of no number. -/
theorem unpack_of_exponent_eq (h : unpackExponent bits = -1#_) :
    ¬(UnpackedFloat.unpack .binary64 bits).isFinite := by
  unfold UnpackedFloat.unpack
  dsimp only
  rw [if_pos h]
  by_cases hmantissa : unpackMantissa bits = 0#_
  · rw [if_pos hmantissa]
    exact Bool.false_ne_true
  · rw [if_neg hmantissa]
    exact Bool.false_ne_true

/-- Other bits are those of a zero, or of a finite double: its mantissa has 53 bits at most, and its
exponent is at most that of the greatest doubles. -/
theorem unpack_of_exponent_ne (h : unpackExponent bits ≠ -1#_) :
    (UnpackedFloat.unpack .binary64 bits).isFinite ∧
      ∀ sign mantissa exponent hpos,
        UnpackedFloat.unpack .binary64 bits = .finite sign mantissa exponent hpos →
          mantissa < 2 ^ 53 ∧ exponent ≤ maxExponent := by
  have hbias : Format.binary64.exponentBias = 1023 := rfl
  have hmax : (unpackExponent bits).toNat < 2 ^ 11 - 1 := by
    rw [BitVec.neg_one_eq_allOnes, ← BitVec.lt_allOnes_iff] at h
    exact h
  unfold UnpackedFloat.unpack
  dsimp only
  rw [if_neg h]
  by_cases hexponent : unpackExponent bits = 0#_
  · rw [if_pos hexponent]
    by_cases hmantissa : unpackMantissa bits = 0#_
    · rw [dif_pos hmantissa]
      refine ⟨rfl, ?_⟩
      rintro _ _ _ _ ⟨⟩
    · -- a subnormal double has the least exponent
      rw [dif_neg hmantissa]
      refine ⟨rfl, ?_⟩
      rintro _ _ _ _ ⟨⟩
      have hlt : (unpackMantissa bits).toNat < 2 ^ 52 := (unpackMantissa bits).isLt
      have hzero : (unpackExponent bits).toNat = 0 := by
        rw [hexponent]
        rfl
      refine ⟨by omega, ?_⟩
      rw [hzero, hbias]
      decide
  · rw [if_neg hexponent]
    refine ⟨rfl, ?_⟩
    rintro _ _ _ _ ⟨⟩
    have hlt : (1#1 ++ unpackMantissa bits).toNat < 2 ^ 53 := (1#1 ++ unpackMantissa bits).isLt
    refine ⟨hlt, ?_⟩
    simp only [hbias, maxExponent]
    omega

theorem isFinite_unpack_iff :
    (UnpackedFloat.unpack .binary64 bits).isFinite ↔ unpackExponent bits ≠ -1#_ := by
  constructor
  · intro hfinite heq
    exact unpack_of_exponent_eq heq hfinite
  · intro hne
    exact (unpack_of_exponent_ne hne).1

theorem unpack_eq_finite {sign : Sign} {mantissa : Nat} {exponent : Int} {hpos : 0 < mantissa}
    (h : UnpackedFloat.unpack .binary64 bits = .finite sign mantissa exponent hpos) :
    mantissa < 2 ^ 53 ∧ exponent ≤ maxExponent := by
  have hfinite : (UnpackedFloat.unpack .binary64 bits).isFinite := by
    rw [h]
    rfl
  exact (unpack_of_exponent_ne (isFinite_unpack_iff.mp hfinite)).2 _ _ _ _ h

/-- What does not overflow is finite as a double. -/
theorem isFinite_pack (h : Fits f) :
    (UnpackedFloat.unpack .binary64 (UnpackedFloat.pack .binary64 f)).isFinite := by
  rw [isFinite_unpack_iff]
  cases f with
  | infinity _ | notANumber => exact h.elim
  | zero sign =>
      unfold UnpackedFloat.pack packedZero
      dsimp only
      rw [unpackExponent_packComponents]
      decide
  | finite sign mantissa exponent hpos =>
      have hbiased : (exponent + Format.binary64.exponentBias + 52).toNat < 2 ^ 11 - 1 := by
        have hbias : Format.binary64.exponentBias = 1023 := rfl
        have hle : exponent ≤ 971 := h
        rw [hbias]
        omega
      unfold UnpackedFloat.pack
      dsimp only
      rw [if_neg (by omega)]
      split
      · rw [unpackExponent_packComponents]
        intro heq
        have hbits := congrArg BitVec.toNat heq
        rw [BitVec.toNat_ofNat, Nat.mod_eq_of_lt (by omega)] at hbits
        exact absurd (hbits.trans (rfl : _ = 2 ^ 11 - 1)) (Nat.ne_of_lt hbiased)
      · rw [unpackExponent_packComponents]
        decide

theorem fits_unpack (h : (UnpackedFloat.unpack .binary64 bits).isFinite) :
    Fits (UnpackedFloat.unpack .binary64 bits) := by
  cases hf : UnpackedFloat.unpack .binary64 bits with
  | infinity _ | notANumber =>
      rw [hf] at h
      cases h
  | zero _ => trivial
  | finite sign mantissa exponent hpos => exact (unpack_eq_finite hf).2

theorem isFinite_neg (hx : x.isFinite) : (-x).isFinite := by
  refine isFinite_pack ?_
  have h : Fits x.toModel.unpack := fits_unpack hx
  cases hf : x.toModel.unpack with
  | infinity _ | notANumber =>
      rw [hf] at h
      exact h
  | zero _ => trivial
  | finite sign mantissa exponent hpos =>
      rw [hf] at h
      exact h

/-! ## Rounding -/

theorem mantissa_shift (m : ExtendedMantissa) (n : Nat) :
    (m >>> n).mantissa = m.mantissa / 2 ^ n := by
  induction n with
  | zero => exact (Nat.div_one _).symm
  | succ n ih =>
      change (m >>> n).mantissa / 2 = _
      rw [ih, Nat.div_div_eq_div_mul, Nat.pow_succ]

theorem roundedMantissa_le (m : ExtendedMantissa) : m.roundedMantissa ≤ m.mantissa + 1 := by
  obtain ⟨mantissa, round, sticky⟩ := m
  cases round <;> cases sticky <;>
    simp only [ExtendedMantissa.roundedMantissa, ExtendedMantissa.accuracy,
      Accuracy.roundToNearestEven] <;> omega

theorem mantissa_ofMantissaAndAccuracy (mantissa : Nat) (accuracy : Accuracy) :
    (ExtendedMantissa.ofMantissaAndAccuracy mantissa accuracy).mantissa = mantissa := by
  cases accuracy with
  | exact => rfl
  | inexact o => cases o <;> rfl

theorem log2_le {n size : Nat} (h : n < 2 ^ (size + 1)) : n.log2 ≤ size := by
  obtain rfl | hpos := n.eq_zero_or_pos
  · exact Nat.zero_le _
  · exact Nat.le_of_lt_succ ((Nat.log2_lt (Nat.ne_of_gt hpos)).mpr h)

/-- A shift to the target exponent leaves 53 bits of the mantissa, and raises the exponent by the
bits that it drops. -/
theorem shiftToTargetExponent_le {mantissa size : Nat} (exponent : Int) (accuracy : Accuracy)
    (h : mantissa < 2 ^ (size + 1)) :
    (shiftToTargetExponent .binary64 mantissa exponent accuracy).1.mantissa < 2 ^ 53 ∧
      (shiftToTargetExponent .binary64 mantissa exponent accuracy).2 ≤
        max exponent (max (exponent + size - 52) (-1074)) := by
  have hlog : mantissa.log2 ≤ size := log2_le h
  have htarget : Format.binary64.targetExponent (totalExponent mantissa exponent) =
      max (mantissa.log2 + 1 + exponent - 53) (-1074) := rfl
  unfold shiftToTargetExponent shiftToExponent
  dsimp only
  rw [htarget, mantissa_shift, mantissa_ofMantissaAndAccuracy]
  generalize hshift : (max (mantissa.log2 + 1 + exponent - 53 : Int) (-1074) - exponent).toNat =
    shift
  refine ⟨?_, by omega⟩
  rw [Nat.div_lt_iff_lt_mul (Nat.two_pow_pos _), ← Nat.pow_add]
  refine Nat.lt_of_lt_of_le Nat.lt_log2_self (Nat.pow_le_pow_right Nat.two_pos ?_)
  omega

/-- A mantissa below a power of two is rounded to 53 bits, so the exponent grows by the bits that
are dropped and by one more at most. -/
theorem fits_roundWithAccuracy {sign : Sign} {mantissa : Nat} {exponent : Int}
    {accuracy : Accuracy} (size : Nat) (hmantissa : mantissa < 2 ^ (size + 1))
    (hexponent : exponent < maxExponent) (hsize : exponent + size < maxExponent + 52) :
    Fits (roundWithAccuracy .binary64 sign mantissa exponent accuracy) := by
  obtain ⟨hshifted, hfirst⟩ := shiftToTargetExponent_le exponent accuracy hmantissa
  unfold roundWithAccuracy
  dsimp only
  generalize shiftToTargetExponent .binary64 mantissa exponent accuracy = first at hshifted hfirst
  have hrounded : first.1.roundedMantissa < 2 ^ (53 + 1) :=
    Nat.lt_of_le_of_lt (roundedMantissa_le _) (by omega)
  obtain ⟨-, hsecond⟩ := shiftToTargetExponent_le first.2 .exact hrounded
  generalize shiftToTargetExponent .binary64 first.1.roundedMantissa first.2 .exact = second
    at hsecond
  by_cases hzero : second.1.mantissa = 0
  · rw [dif_pos hzero]
    trivial
  · rw [dif_neg hzero]
    change second.2 ≤ maxExponent
    simp only [maxExponent] at *
    omega

/-! ## Counts -/

theorem fits_round {sign : Sign} {n : Nat} (h : n < 2 ^ 64) :
    Fits (UnpackedFloat.round .binary64 sign n 0) := by
  unfold UnpackedFloat.round decreaseExponent
  dsimp only
  generalize (0 - Format.binary64.targetExponent (totalExponent n 0)).toNat = shift
  refine fits_roundWithAccuracy (63 + shift) ?_ ?_ ?_
  · rw [Nat.shiftLeft_eq, Nat.add_right_comm, Nat.pow_add]
    exact Nat.mul_lt_mul_of_pos_right h (Nat.two_pow_pos _)
  · simp only [maxExponent]
    omega
  · simp only [maxExponent]
    omega

theorem isFinite_ofCount (n : Nat) : (Number.ofCount n).isFinite := by
  have hn : n.toUInt64.toNat < 2 ^ 64 := n.toUInt64.toNat_lt
  refine isFinite_pack ?_
  unfold UnpackedFloat.ofUInt64 UnpackedFloat.ofNat UnpackedFloat.ofInt
    UnpackedFloat.normalize
  split
  · exact fits_round (by omega)
  · trivial
  · exact fits_round (by omega)

/-! ## Hundredths -/

theorem unpack_hundred :
    (100 : Float).toModel.unpack = .finite .positive (100 * 2 ^ 46) (-46) (by decide) := rfl

theorem fits_div_hundred {sign : Sign} {mantissa : Nat} {exponent : Int} {hpos : 0 < mantissa}
    (hmantissa : mantissa < 2 ^ 53) (hexponent : exponent ≤ maxExponent) :
    Fits (UnpackedFloat.div .binary64 (.finite sign mantissa exponent hpos)
      (.finite .positive (100 * 2 ^ 46) (-46) (by decide))) := by
  have hlog : mantissa.log2 ≤ 52 := log2_le hmantissa
  have htarget : Format.binary64.targetExponent
      (totalExponent mantissa exponent - totalExponent (100 * 2 ^ 46) (-46)) =
        max (mantissa.log2 + 1 + exponent - 7 - 53) (-1074) := rfl
  unfold UnpackedFloat.div divCore
  dsimp only
  rw [htarget]
  generalize htarget : min (exponent - -46) (max (mantissa.log2 + 1 + exponent - 7 - 53) (-1074)) =
    target
  generalize hshift : (exponent - -46 - target).toNat = shift
  simp only [maxExponent] at hexponent
  refine fits_roundWithAccuracy shift ?_ ?_ ?_
  · -- the quotient of 53 bits by a number of 53 bits has the bits that the shift adds
    rw [Nat.div_lt_iff_lt_mul (by decide), Nat.shiftLeft_eq]
    calc mantissa * 2 ^ shift < 2 ^ 53 * 2 ^ shift :=
          Nat.mul_lt_mul_of_pos_right hmantissa (Nat.two_pow_pos _)
      _ = 2 ^ (shift + 1) * 2 ^ 52 := by rw [← Nat.pow_add, ← Nat.pow_add, Nat.add_comm]
      _ ≤ 2 ^ (shift + 1) * (100 * 2 ^ 46) := Nat.mul_le_mul_left _ (by decide)
  · simp only [maxExponent]
    omega
  · simp only [maxExponent]
    omega

theorem isFinite_div_hundred (hx : x.isFinite) : (x / 100).isFinite := by
  refine isFinite_pack ?_
  rw [unpack_hundred]
  have h : Fits x.toModel.unpack := fits_unpack hx
  cases hf : x.toModel.unpack with
  | infinity _ | notANumber =>
      rw [hf] at h
      exact h.elim
  | zero _ => trivial
  | finite sign mantissa exponent hpos =>
      obtain ⟨hmantissa, hexponent⟩ := unpack_eq_finite hf
      exact fits_div_hundred hmantissa hexponent

end Spreadsheet.Double
