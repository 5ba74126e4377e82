import LeibnizSieve.Decimal.Fixed
import LeibnizSieve.Proofs.Binary64.Denotation
import LeibnizSieve.Proofs.Binary64.Order

/-! Numbers with a fixed count of decimal places. Main statement: the digits around the point are
those of the exact value in units of the last place, rounded once. -/

namespace LeibnizSieve.Decimal

open Binary64

section Units

theorem natCast_roundHalfEven (num : ℕ) {den : ℕ} (h : 0 < den) :
    (roundHalfEven num den : ℤ) = nearestInt (num / den) := by
  have hden : (0 : ℚ) < den := by exact_mod_cast h
  have hfloor : ⌊(num / den : ℚ)⌋ = (num / den : ℕ) := by
    rw [Rat.floor_natCast_div_natCast]
    norm_cast
  have hsplit : (num : ℚ) = (num / den : ℕ) * den + (num % den : ℕ) := by
    exact_mod_cast (Nat.div_add_mod' num den).symm
  -- on either side the question is where the rest lies from half of the divisor
  have hbelow : (num / den : ℚ) < (num / den : ℕ) + 1 / 2 ↔ 2 * (num % den) < den := by
    rw [div_lt_iff₀ hden, ← Nat.cast_lt (α := ℚ), Nat.cast_mul, Nat.cast_ofNat]
    constructor <;> intro _ <;> linarith
  have habove : (num / den : ℕ) + 1 / 2 < (num / den : ℚ) ↔ den < 2 * (num % den) := by
    rw [lt_div_iff₀ hden, ← Nat.cast_lt (α := ℚ), Nat.cast_mul, Nat.cast_ofNat]
    constructor <;> intro _ <;> linarith
  simp only [roundHalfEven, nearestInt, hfloor, Int.cast_natCast, hbelow, habove]
  split_ifs <;> omega

theorem natCast_fixedUnits (places m : ℕ) (e : ℤ) :
    (fixedUnits places m e : ℤ) = nearestInt (m * 2 ^ e * 10 ^ places) := by
  have hpow := zpow_mul_toNat (b := 2) (by norm_num) e
  rw [fixedUnits, natCast_roundHalfEven _ (by positivity)]
  congr 1
  push_cast
  rw [← hpow]
  field_simp

end Units

section Text

variable {places : ℕ}

/-- The digits before and behind the point of a number with a fixed count of places. -/
structure FixedParts (places : ℕ) (whole fraction : List Char) : Prop where
  isDigits : IsDigits whole
  head : whole.head? = some '0' → whole = ['0']
  length : fraction.length = places
  isDigit : ∀ c ∈ fraction, c.isDigit = true

theorem toList_unitsText (places units : ℕ) : (unitsText places units).toList =
    Nat.toDigits 10 (units / 10 ^ places) ++
      '.' :: paddedDigits places (units % 10 ^ places) := by
  simp [unitsText]

theorem fixedParts (hplaces : 0 < places) (units : ℕ) :
    FixedParts places (Nat.toDigits 10 (units / 10 ^ places))
      (paddedDigits places (units % 10 ^ places)) where
  isDigits := isDigits_toDigits _
  head := by
    intro h
    rw [eq_zero_of_head h]
    rfl
  length := by
    apply length_paddedDigits
    rw [Nat.length_toDigits_le_iff (by norm_num) hplaces]
    exact Nat.mod_lt _ (by positivity)
  isDigit := (isDigits_zeros_append _ (isDigits_toDigits _)).2

theorem natural_parts (hplaces : 0 < places) (units : ℕ) :
    natural (Nat.toDigits 10 (units / 10 ^ places) ++
      paddedDigits places (units % 10 ^ places)) = units := by
  rw [natural_append, natural_toDigits, (fixedParts hplaces units).length, paddedDigits,
    natural_zeros_append, natural_toDigits]
  exact Nat.div_add_mod' units _

end Text

/-- A minus sign stands for the sign bit. The digits are those of the magnitude in units of the last
place, rounded to nearest and ties to even. -/
theorem fixedText_parts {places : ℕ} (hplaces : 0 < places) {x : Float} {v : ℚ}
    (hx : value? x = some v) : ∃ negative whole fraction, FixedParts places whole fraction ∧
      (fixedText places x).toList =
        (if negative then ['-'] else []) ++ (whole ++ '.' :: fraction) ∧
      (negative = true ↔ 2 ^ 63 ≤ x.toBits.toNat) ∧ (v = if negative then -|v| else |v|) ∧
      (natural (whole ++ fraction) : ℤ) = nearestInt (|v| * 10 ^ places) := by
  obtain ⟨negative, m, e, hreading, habs, hsign⟩ := exists_finite_of_value hx
  have hbit := (fields_of_ofWord hreading).1
  have hword := x.toBits.toNat_lt
  refine ⟨negative, _, _, fixedParts hplaces (fixedUnits places m e), ?_, ?_, hsign, ?_⟩
  · rw [fixedText, hreading, Reading.fixedText, String.toList_append, toList_unitsText]
    cases negative <;> rfl
  · rw [hbit, decide_eq_true_eq]
    omega
  · rw [natural_parts hplaces, natCast_fixedUnits, habs]

end LeibnizSieve.Decimal
