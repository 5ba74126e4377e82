import LeibnizSieve.Proofs.Binary64.Rounding
import LeibnizSieve.Proofs.Binary64.Words

/-! A mantissa that was cut from a number keeps two bits on what is left of it. They say enough to
round the number itself: the shifts of an operation lose nothing that the nearest number depends
on, and what it puts together is canonical. -/

namespace LeibnizSieve.Binary64

open Float.Model Float.Model.UnpackedFloat

/-- What the bits behind a mantissa say of the number it was cut from: how what is left compares
with half a unit. -/
inductive CutFrom (x : ℚ) : ExtendedMantissa → Prop where
  | exact {m : ℕ} (h : x = m) : CutFrom x ⟨m, false, false⟩
  | below {m : ℕ} (hlo : m < x) (hhi : x < m + 1 / 2) : CutFrom x ⟨m, false, true⟩
  | half {m : ℕ} (h : x = m + 1 / 2) : CutFrom x ⟨m, true, false⟩
  | above {m : ℕ} (hlo : m + 1 / 2 < x) (hhi : x < m + 1) : CutFrom x ⟨m, true, true⟩

theorem cutFrom_exact (m : ℕ) : CutFrom m (.ofMantissaAndAccuracy m .exact) := .exact rfl

theorem cutFrom_quotient (n : ℕ) {d : ℕ} (hd : 0 < d) :
    CutFrom (n / d) (.ofMantissaAndAccuracy (n / d) (accuracyOfFraction (n % d) d)) := by
  have hd' : (0 : ℚ) < d := by exact_mod_cast hd
  have hn : (n : ℚ) = (n / d : ℕ) * d + (n % d : ℕ) := by
    exact_mod_cast (Nat.div_add_mod' n d).symm
  have hlt : ((n % d : ℕ) : ℚ) < d := by exact_mod_cast Nat.mod_lt n hd
  unfold accuracyOfFraction
  split_ifs with hrest
  · apply CutFrom.exact
    rw [div_eq_iff hd'.ne', hn, hrest, Nat.cast_zero, add_zero]
  · have hpos : (0 : ℚ) < (n % d : ℕ) := by exact_mod_cast Nat.pos_of_ne_zero hrest
    cases hc : compare (2 * (n % d)) d with
    | lt =>
      have hhalf : (2 * (n % d : ℕ) : ℚ) < d := by exact_mod_cast Nat.compare_eq_lt.1 hc
      apply CutFrom.below
      · rw [lt_div_iff₀ hd']
        linarith
      · rw [div_lt_iff₀ hd']
        linarith
    | eq =>
      have hhalf : (2 * (n % d : ℕ) : ℚ) = d := by exact_mod_cast Nat.compare_eq_eq.1 hc
      apply CutFrom.half
      rw [div_eq_iff hd'.ne']
      linarith
    | gt =>
      have hhalf : (d : ℚ) < 2 * (n % d : ℕ) := by exact_mod_cast Nat.compare_eq_gt.1 hc
      apply CutFrom.above
      · rw [lt_div_iff₀ hd']
        linarith
      · rw [div_lt_iff₀ hd']
        linarith

section Shift

variable {x : ℚ} {em : ExtendedMantissa}

theorem half_mantissa (m : ℕ) : ((m % 2 : ℕ) : ℚ) + 2 * (m / 2 : ℕ) = m := by
  exact_mod_cast Nat.mod_add_div m 2

theorem cutFrom_shiftRightOne (hbits : (em.roundBit || em.stickyBit) = true)
    (hlo : em.mantissa < x) (hhi : x < em.mantissa + 1) :
    CutFrom (x / 2) em.shiftRightOne := by
  have hm := half_mantissa em.mantissa
  rcases Nat.mod_two_eq_zero_or_one em.mantissa with hr | hr
  · rw [hr, Nat.cast_zero] at hm
    simp only [ExtendedMantissa.shiftRightOne, hbits, hr, bne_self_eq_false]
    exact .below (by linarith) (by linarith)
  · rw [hr, Nat.cast_one] at hm
    simp only [ExtendedMantissa.shiftRightOne, hbits, hr, show (1 != 0) = true from rfl]
    exact .above (by linarith) (by linarith)

theorem CutFrom.shiftRightOne (h : CutFrom x em) : CutFrom (x / 2) em.shiftRightOne := by
  cases h with
  | @exact m h =>
    have hm := half_mantissa m
    rcases Nat.mod_two_eq_zero_or_one m with hr | hr
    · rw [hr, Nat.cast_zero] at hm
      simp only [ExtendedMantissa.shiftRightOne, hr, bne_self_eq_false]
      exact .exact (by linarith)
    · rw [hr, Nat.cast_one] at hm
      simp only [ExtendedMantissa.shiftRightOne, hr, show (1 != 0) = true from rfl]
      exact .half (by linarith)
  | below hlo hhi => exact cutFrom_shiftRightOne rfl hlo (by dsimp only; linarith)
  | half h => exact cutFrom_shiftRightOne rfl (by dsimp only; linarith) (by dsimp only; linarith)
  | above hlo hhi => exact cutFrom_shiftRightOne rfl (by dsimp only; linarith) hhi

theorem CutFrom.shiftRight (h : CutFrom x em) (n : ℕ) : CutFrom (x / 2 ^ n) (em >>> n) := by
  change CutFrom (x / 2 ^ n) (n.repeat ExtendedMantissa.shiftRightOne em)
  induction n with
  | zero => simpa [Nat.repeat] using h
  | succ n ih =>
    rw [Nat.repeat, pow_succ, ← div_div]
    exact ih.shiftRightOne

theorem CutFrom.floor (h : CutFrom x em) : ⌊x⌋ = em.mantissa := by
  rw [Int.floor_eq_iff, Int.cast_natCast]
  cases h <;> constructor <;> linarith

theorem CutFrom.roundedMantissa (h : CutFrom x em) :
    (em.roundedMantissa : ℤ) = nearestInt x := by
  rw [nearestInt, h.floor, Int.cast_natCast]
  cases h with
  | exact h =>
    rw [if_pos (by linarith)]
    rfl
  | below hlo hhi =>
    rw [if_pos hhi]
    rfl
  | @half m h =>
    rw [if_neg (by linarith), if_neg (by linarith)]
    change ((m + m % 2 : ℕ) : ℤ) = if (m : ℤ) % 2 = 0 then (m : ℤ) else m + 1
    split_ifs <;> omega
  | above hlo hhi =>
    rw [if_neg (by linarith), if_pos hlo]
    rfl

end Shift

theorem log_of_floor {q : ℚ} {m : ℕ} (hfloor : ⌊q⌋ = m) (hm : 0 < m) (e : ℤ) :
    Int.log 2 (q * 2 ^ e) = m.log2 + e := by
  have hpow : (0 : ℚ) < 2 ^ e := zpow_pos (by norm_num) e
  obtain ⟨hle, hlt⟩ := Int.floor_eq_iff.1 hfloor
  rw [Int.cast_natCast] at hle hlt
  have hm' : (0 : ℚ) < m := by exact_mod_cast hm
  have hpos : 0 < q * 2 ^ e := mul_pos (by linarith) hpow
  have hlo : ((2 ^ m.log2 : ℕ) : ℚ) ≤ m := by exact_mod_cast Nat.log2_self_le hm.ne'
  have hhi : (m : ℚ) + 1 ≤ ((2 ^ (m.log2 + 1) : ℕ) : ℚ) := by exact_mod_cast Nat.lt_log2_self
  push_cast at hlo hhi
  apply le_antisymm
  · rw [← Int.lt_add_one_iff, ← Int.lt_zpow_iff_log_lt (by norm_num) hpos, Nat.cast_ofNat,
      add_right_comm, zpow_add₀ (by norm_num)]
    have hlt' : q < 2 ^ (m.log2 + 1) := by linarith
    exact_mod_cast mul_lt_mul_of_pos_right hlt' hpow
  · rw [← Int.zpow_le_iff_le_log (by norm_num) hpos, Nat.cast_ofNat, zpow_add₀ (by norm_num)]
    have hle' : 2 ^ m.log2 ≤ q := by linarith
    exact_mod_cast mul_le_mul_of_nonneg_right hle' hpow.le

theorem targetExponent_eq {q : ℚ} {m : ℕ} {e : ℤ} (hq : 0 < q) (hfloor : ⌊q⌋ = m)
    (he : e ≤ lastPlace (q * 2 ^ e)) :
    Format.binary64.targetExponent (totalExponent m e) = lastPlace (q * 2 ^ e) := by
  have hpow : (0 : ℚ) < 2 ^ e := zpow_pos (by norm_num) e
  have hpos : 0 < q * 2 ^ e := mul_pos hq hpow
  have htarget : Format.binary64.targetExponent (totalExponent m e) =
      max (m.log2 + 1 + e - 53) (-1074) := rfl
  rw [lastPlace, abs_of_pos hpos] at *
  rcases Nat.eq_zero_or_pos m with hm | hm
  · -- nothing is left of the mantissa: this happens below the least number only
    have hlt : q < 1 := by
      have := (Int.floor_eq_iff.1 hfloor).2
      simpa [hm] using this
    have hlog : Int.log 2 (q * 2 ^ e) < e := by
      rw [← Int.lt_zpow_iff_log_lt (by norm_num) hpos, Nat.cast_ofNat]
      linarith [mul_lt_mul_of_pos_right hlt hpow]
    rw [htarget, hm, Nat.log2_zero]
    omega
  · rw [htarget, log_of_floor hfloor hm e]
    omega

theorem carry {m : ℕ} {e : ℤ} (hm : m ≤ 2 ^ 53) (he : -1074 ≤ e)
    (hfull : 2 ^ 52 ≤ m ∨ e = -1074) :
    ∃ m' e', (shiftToTargetExponent Format.binary64 m e .exact).1.mantissa = m' ∧
      (shiftToTargetExponent Format.binary64 m e .exact).2 = e' ∧
      (m' : ℚ) * 2 ^ e' = m * 2 ^ e ∧ m' < 2 ^ 53 ∧ -1074 ≤ e' ∧ (2 ^ 52 ≤ m' ∨ e' = -1074) := by
  have htarget : Format.binary64.targetExponent (totalExponent m e) =
      max (m.log2 + 1 + e - 53) (-1074) := rfl
  rcases Nat.lt_or_eq_of_le hm with hlt | rfl
  · have hlog : m.log2 < 53 := by
      rcases Nat.eq_zero_or_pos m with h0 | hpos
      · simp [h0]
      · exact (Nat.log2_lt hpos.ne').2 hlt
    have hshift : (max ((m.log2 : ℤ) + 1 + e - 53) (-1074) - e).toNat = 0 := by omega
    refine ⟨m, e, ?_, ?_, rfl, hlt, he, hfull⟩
    · simp only [shiftToTargetExponent, shiftToExponent, htarget, hshift]
      rfl
    · simp only [shiftToTargetExponent, shiftToExponent, htarget, hshift]
      simp
  · have hshift : (max (((2 ^ 53 : ℕ).log2 : ℤ) + 1 + e - 53) (-1074) - e).toNat = 1 := by
      rw [Nat.log2_two_pow]
      omega
    refine ⟨2 ^ 52, e + 1, ?_, ?_, ?_, by norm_num, by omega, Or.inl le_rfl⟩
    · simp only [shiftToTargetExponent, shiftToExponent, htarget, hshift]
      rfl
    · simp only [shiftToTargetExponent, shiftToExponent, htarget, hshift]
      rfl
    · rw [zpow_add₀ (by norm_num)]
      push_cast
      ring

theorem div_ulp_mem {x : ℚ} (hx : 0 < x) :
    x / ulp x < 2 ^ 53 ∧ (2 ^ 52 ≤ x / ulp x ∨ lastPlace x = -1074) := by
  have hu := ulp_pos x
  constructor
  · rw [div_lt_iff₀ hu, ulp, ← zpow_natCast, ← zpow_add₀ (by norm_num)]
    have hlog := Int.lt_zpow_succ_log_self (b := 2) (by norm_num) x
    refine lt_of_lt_of_le (by exact_mod_cast hlog) (zpow_le_zpow_right₀ (by norm_num) ?_)
    rw [lastPlace, abs_of_pos hx]
    push_cast
    omega
  · by_cases hlow : lastPlace x = -1074
    · exact Or.inr hlow
    · left
      rw [le_div_iff₀ hu, ulp, ← zpow_natCast, ← zpow_add₀ (by norm_num)]
      have hlog := Int.zpow_log_le_self (b := 2) (by norm_num) hx
      refine le_trans (zpow_le_zpow_right₀ (by norm_num) ?_) (by exact_mod_cast hlog)
      rw [lastPlace, abs_of_pos hx] at hlow ⊢
      push_cast
      omega

theorem CutFrom.roundedMantissa_mem {x : ℚ} {em : ExtendedMantissa} (hx : 0 < x)
    (h : CutFrom (x / ulp x) em) :
    em.roundedMantissa ≤ 2 ^ 53 ∧ (2 ^ 52 ≤ em.roundedMantissa ∨ lastPlace x = -1074) := by
  obtain ⟨hlt, hfull⟩ := div_ulp_mem hx
  have hrounded := h.roundedMantissa
  constructor
  · have hle := nearestInt_le (n := 2 ^ 53) (by push_cast; exact hlt.le)
    rw [← hrounded] at hle
    exact_mod_cast hle
  · refine hfull.imp_left fun hge => ?_
    have hle := le_nearestInt (n := 2 ^ 52) (by push_cast; exact hge)
    rw [← hrounded] at hle
    exact_mod_cast hle

theorem shiftToTargetExponent_eq {q : ℚ} {m : ℕ} {e : ℤ} {accuracy : Accuracy} (hq : 0 < q)
    (hcut : CutFrom q (.ofMantissaAndAccuracy m accuracy)) (he : e ≤ lastPlace (q * 2 ^ e)) :
    ∃ em, shiftToTargetExponent Format.binary64 m e accuracy = (em, lastPlace (q * 2 ^ e)) ∧
      CutFrom (q * 2 ^ e / ulp (q * 2 ^ e)) em := by
  have hfloor : ⌊q⌋ = m := by
    rw [hcut.floor]
    cases accuracy with
    | exact => rfl
    | inexact order => cases order <;> rfl
  have htarget := targetExponent_eq hq hfloor he
  have hshift : ((lastPlace (q * 2 ^ e) - e).toNat : ℤ) = lastPlace (q * 2 ^ e) - e := by omega
  refine ⟨ExtendedMantissa.ofMantissaAndAccuracy m accuracy >>>
    (lastPlace (q * 2 ^ e) - e).toNat, ?_, ?_⟩
  · rw [shiftToTargetExponent, htarget, shiftToExponent, hshift, add_sub_cancel]
  · have hscaled : q * 2 ^ e / ulp (q * 2 ^ e) = q / 2 ^ (lastPlace (q * 2 ^ e) - e).toNat := by
      rw [ulp, ← zpow_natCast, hshift, zpow_sub₀ (by norm_num), div_div_eq_mul_div]
    rw [hscaled]
    exact hcut.shiftRight _

/-- The last step of every operation: it gives the number nearest to the one that its mantissa was
cut from, provided that this mantissa reaches down to the last place. -/
theorem rational_roundWithAccuracy {q : ℚ} {m : ℕ} {e : ℤ} {accuracy : Accuracy} (s : Sign)
    (hq : 0 < q) (hcut : CutFrom q (.ofMantissaAndAccuracy m accuracy))
    (he : e ≤ lastPlace (q * 2 ^ e)) :
    Canonical (roundWithAccuracy Format.binary64 s m e accuracy) ∧
      (reading (roundWithAccuracy Format.binary64 s m e accuracy)).rational? =
        some ((s.apply 1 : ℤ) * nearest (q * 2 ^ e)) := by
  obtain ⟨em, hfirst, hcut'⟩ := shiftToTargetExponent_eq hq hcut he
  have hx : 0 < q * 2 ^ e := mul_pos hq (zpow_pos (by norm_num) e)
  generalize q * 2 ^ e = x at *
  obtain ⟨hm, hfull⟩ := hcut'.roundedMantissa_mem hx
  obtain ⟨m', e', hmantissa, hexponent, hvalue, hcanonical⟩ :=
    carry hm (show -1074 ≤ lastPlace x from le_max_right _ _) hfull
  have hnearest : nearest x = m' * 2 ^ e' := by
    rw [hvalue, nearest, ← hcut'.roundedMantissa, Int.cast_natCast, ulp]
  have hround : roundWithAccuracy Format.binary64 s m e accuracy =
      if h : m' = 0 then .zero s else .finite s m' e' (Nat.pos_of_ne_zero h) := by
    subst hmantissa hexponent
    rw [roundWithAccuracy, hfirst]
  rw [hround, hnearest]
  split_ifs with h0
  · refine ⟨trivial, ?_⟩
    rw [rational_zero, h0]
    simp
  · refine ⟨hcanonical, ?_⟩
    rw [rational_finite]
    cases s <;> simp [Sign.apply]

end LeibnizSieve.Binary64
