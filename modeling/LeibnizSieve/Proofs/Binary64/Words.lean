import LeibnizSieve.Decimal.Reading
import Mathlib

/-! The number that a binary64 word stands for. A word taken apart for arithmetic has the same
reading as the word itself, and a result that is put together again keeps its number if it is in
canonical shape and not too large. -/

namespace LeibnizSieve.Decimal

def Reading.rational? : Reading → Option ℚ
  | .finite negative significand exponent =>
    some ((if negative then -(significand : ℚ) else significand) * 2 ^ exponent)
  | _ => none

end LeibnizSieve.Decimal

namespace LeibnizSieve.Binary64

open Decimal
open Float.Model Float.Model.UnpackedFloat

/-- The exact rational number that the bits of a float denote. -/
def value? (x : Float) : Option ℚ := (Reading.ofFloat x).rational?

def isNegative : Sign → Bool
  | .negative => true
  | .positive => false

def reading : UnpackedFloat → Reading
  | .notANumber => .notANumber
  | .infinity s => .infinite (isNegative s)
  | .zero s => .finite (isNegative s) 0 (-1074)
  | .finite s m e _ => .finite (isNegative s) m e

@[simp] theorem rational_zero (s : Sign) : (reading (.zero s)).rational? = some 0 := by
  cases s <;> simp [reading, Reading.rational?]

theorem rational_finite (s : Sign) (m : ℕ) (e : ℤ) (hm : 0 < m) :
    (reading (.finite s m e hm)).rational? = some ((s.apply m : ℤ) * 2 ^ e : ℚ) := by
  cases s <;> simp [reading, isNegative, Reading.rational?, Sign.apply]

theorem toNat_exponent (b : BitVec 64) :
    (@unpackExponent Format.binary64 b).toNat = b.toNat / 2 ^ 52 % 2 ^ 11 := by
  simp [unpackExponent, Nat.shiftRight_eq_div_pow]

theorem toNat_mantissa (b : BitVec 64) :
    (@unpackMantissa Format.binary64 b).toNat = b.toNat % 2 ^ 52 := by
  simp [unpackMantissa]

theorem toNat_sign (b : BitVec 64) :
    (@unpackSign Format.binary64 b).toNat = b.toNat / 2 ^ 63 % 2 := by
  simp [unpackSign, Nat.shiftRight_eq_div_pow]

theorem isNegative_ofBitVec (b : BitVec 1) :
    isNegative (Sign.ofBitVec b) = decide (b.toNat = 1) := by
  revert b
  decide

theorem toNat_implicit (m : BitVec 52) : (1#1 ++ m).toNat = 2 ^ 52 + m.toNat := by
  rw [BitVec.toNat_append, ← Nat.shiftLeft_add_eq_or_of_lt m.isLt]
  rfl

theorem ofWord_toNat (b : BitVec 64) :
    Reading.ofWord b.toNat = reading (UnpackedFloat.unpack Format.binary64 b) := by
  have hexponent := toNat_exponent b
  have hmantissa := toNat_mantissa b
  have hsign := toNat_sign b
  unfold UnpackedFloat.unpack Reading.ofWord
  simp only [← hexponent, ← hmantissa, ← hsign, ← isNegative_ofBitVec]
  have hall : @unpackExponent Format.binary64 b = -1#11 ↔
      (@unpackExponent Format.binary64 b).toNat = 2047 := by
    simp [← BitVec.toNat_inj]
  have hnone : @unpackExponent Format.binary64 b = 0#11 ↔
      (@unpackExponent Format.binary64 b).toNat = 0 := by
    simp [← BitVec.toNat_inj]
  have hzero : @unpackMantissa Format.binary64 b = 0#52 ↔
      (@unpackMantissa Format.binary64 b).toNat = 0 := by
    simp [← BitVec.toNat_inj]
  simp only [hall, hnone, hzero]
  split_ifs with hmax hinf hsub hz
  · rfl
  · rfl
  · simp [reading, hz]
  · simp [reading, hsub, Format.exponentBias]
  · simp only [reading, toNat_implicit, Format.exponentBias]
    rfl

theorem value_eq (x : Float) : value? x = (reading x.toModel.unpack).rational? := by
  rw [value?, Reading.ofFloat, Float.Model.unpack, ← ofWord_toNat]
  rfl

theorem toNat_packComponents (s : Sign) (e : BitVec 11) (m : BitVec 52) :
    (packComponents Format.binary64 s e m).toNat =
      s.toBitVec.toNat * 2 ^ 63 + e.toNat * 2 ^ 52 + m.toNat := by
  rw [packComponents, BitVec.toNat_append, ← Nat.shiftLeft_add_eq_or_of_lt m.isLt,
    BitVec.toNat_append, ← Nat.shiftLeft_add_eq_or_of_lt e.isLt]
  simp only [Nat.shiftLeft_eq]
  ring

theorem ofWord_packComponents (s : Sign) (e : BitVec 11) (m : BitVec 52) :
    Reading.ofWord (packComponents Format.binary64 s e m).toNat =
      if e.toNat = 2047 then
        if m.toNat = 0 then .infinite (isNegative s) else .notANumber
      else if e.toNat = 0 then .finite (isNegative s) m.toNat (-1074)
      else .finite (isNegative s) (2 ^ 52 + m.toNat) (Int.ofNat e.toNat - 1075) := by
  have he := e.isLt
  have hm := m.isLt
  have hs := s.toBitVec.isLt
  have hexponent : (s.toBitVec.toNat * 2 ^ 63 + e.toNat * 2 ^ 52 + m.toNat) / 2 ^ 52 % 2 ^ 11 =
      e.toNat := by omega
  have hmantissa : (s.toBitVec.toNat * 2 ^ 63 + e.toNat * 2 ^ 52 + m.toNat) % 2 ^ 52 =
      m.toNat := by omega
  have hsign : (s.toBitVec.toNat * 2 ^ 63 + e.toNat * 2 ^ 52 + m.toNat) / 2 ^ 63 % 2 =
      s.toBitVec.toNat := by omega
  have hnegative : decide (s.toBitVec.toNat = 1) = isNegative s := by cases s <;> rfl
  rw [toNat_packComponents]
  simp only [Reading.ofWord, hexponent, hmantissa, hsign, hnegative]

/-- The shape of a number that has a word of its own, its size apart: at most 53 places, the first
of them filled unless the last is as low as can be. -/
def Canonical : UnpackedFloat → Prop
  | .zero _ => True
  | .finite _ m e _ => m < 2 ^ 53 ∧ -1074 ≤ e ∧ (2 ^ 52 ≤ m ∨ e = -1074)
  | _ => False

theorem canonical_unpack {x : Float} {v : ℚ} (h : value? x = some v) :
    Canonical x.toModel.unpack := by
  rw [value_eq] at h
  rw [Float.Model.unpack] at h ⊢
  revert h
  generalize x.toModel.toBits.toBitVec = b
  have hmantissa := (@unpackMantissa Format.binary64 b).isLt
  unfold UnpackedFloat.unpack
  dsimp only
  split_ifs with hmax hinf hsub hz
  · intro h
    cases h
  · intro h
    cases h
  · intro _
    trivial
  · intro _
    simp only [Canonical, hsub, Format.exponentBias]
    simp at hmantissa ⊢
    omega
  · intro _
    have hexponent : (@unpackExponent Format.binary64 b).toNat ≠ 0 := by
      simpa [← BitVec.toNat_inj] using hsub
    simp only [Canonical, toNat_implicit, Format.exponentBias]
    simp at hmantissa ⊢
    omega

theorem ofWord_pack {s : Sign} {m : ℕ} {e : ℤ} {hpos : 0 < m}
    (hc : Canonical (.finite s m e hpos)) (hfit : e ≤ 971) :
    Reading.ofWord (UnpackedFloat.pack Format.binary64 (.finite s m e hpos)).toNat =
      .finite (isNegative s) m e := by
  obtain ⟨hm, he, hfull⟩ := hc
  have hbias : e + (Format.binary64.exponentBias : ℤ) +
      (Format.binary64.mantissaBitsWithoutImplicit : ℤ) = e + 1075 := by
    simp [Format.exponentBias]
    omega
  have hlog : m.log2 + 1 = Format.binary64.mantissaBits ↔ 2 ^ 52 ≤ m := by
    have hlo := Nat.le_log2 (k := 52) hpos.ne'
    have hhi := Nat.log2_lt (k := 53) hpos.ne'
    simp only [Format.mantissaBits]
    omega
  simp only [UnpackedFloat.pack, hbias, hlog]
  rw [if_neg (by simp; omega)]
  split_ifs with hnormal
  · rw [ofWord_packComponents]
    simp only [BitVec.toNat_ofNat]
    rw [Nat.mod_eq_of_lt (a := (e + 1075).toNat) (by simp; omega), if_neg (by omega),
      if_neg (by omega)]
    congr 1
    · simp
      omega
    · simp
      omega
  · rw [ofWord_packComponents]
    simp only [BitVec.toNat_ofNat]
    rw [Nat.mod_eq_of_lt (a := m) (by simp; omega)]
    simp
    omega

def overflow : ℚ := 2 ^ (1024 : ℤ)

theorem value_pack {u : UnpackedFloat} {v : ℚ} (hc : Canonical u)
    (hv : (reading u).rational? = some v) (hfit : |v| < overflow) :
    value? ⟨Float.Model.pack u⟩ = some v := by
  rw [← hv, value?, Reading.ofFloat]
  congr 1
  cases u with
  | notANumber => cases hc
  | infinity s => cases hc
  | zero s => cases s <;> decide
  | finite s m e hpos =>
    refine ofWord_pack hc ?_
    by_contra hlarge
    rw [rational_finite, Option.some.injEq] at hv
    have hm : 2 ^ 52 ≤ m := hc.2.2.resolve_right (by omega)
    have habs : |v| = m * 2 ^ e := by
      rw [← hv, abs_mul, abs_of_pos (zpow_pos (by norm_num : (0 : ℚ) < 2) e)]
      cases s <;> simp [Sign.apply]
    have hsize : overflow ≤ m * 2 ^ e := by
      calc overflow = ((2 ^ 52 : ℕ) : ℚ) * 2 ^ (972 : ℤ) := by
            rw [overflow, Nat.cast_pow, Nat.cast_ofNat, ← zpow_natCast,
              ← zpow_add₀ (by norm_num)]
            rfl
        _ ≤ m * 2 ^ e := by
          apply mul_le_mul
          · exact_mod_cast hm
          · exact zpow_le_zpow_right₀ (by norm_num) (by omega)
          · positivity
          · positivity
    linarith

end LeibnizSieve.Binary64
