import LeibnizSieve.Proofs.Binary64.Cutting

/-! Each operation on floats gives the number nearest to the exact result, ties to even, as long as
that number is not too large for a word. -/

namespace LeibnizSieve.Binary64

open Decimal
open Float.Model Float.Model.UnpackedFloat

theorem floor_natCast (m : ℕ) : ⌊(m : ℚ)⌋ = m := by simp

theorem lastPlace_mul_zpow {m : ℕ} (hm : 0 < m) (e : ℤ) :
    lastPlace (m * 2 ^ e) = max (m.log2 + e - 52) (-1074) := by
  have hpos : (0 : ℚ) < m * 2 ^ e :=
    mul_pos (by exact_mod_cast hm) (zpow_pos (by norm_num) e)
  rw [lastPlace, abs_of_pos hpos, log_of_floor (floor_natCast m) hm]

theorem zero_or_finite {u : UnpackedFloat} {v : ℚ} (h : (reading u).rational? = some v) :
    (∃ s, u = .zero s ∧ v = 0) ∨ ∃ s m e hm, u = .finite s m e hm ∧ v = (s.apply m : ℤ) * 2 ^ e := by
  cases u with
  | notANumber => cases h
  | infinity s => cases h
  | zero s =>
    rw [rational_zero, Option.some.injEq] at h
    exact .inl ⟨s, rfl, h.symm⟩
  | finite s m e hm =>
    rw [rational_finite, Option.some.injEq] at h
    exact .inr ⟨s, m, e, hm, rfl, h.symm⟩

theorem nearest_of_canonical {u : UnpackedFloat} {v : ℚ} (hc : Canonical u)
    (hv : (reading u).rational? = some v) : nearest v = v := by
  obtain ⟨s, rfl, rfl⟩ | ⟨s, m, e, hm, rfl, rfl⟩ := zero_or_finite hv
  · exact nearest_zero
  · apply nearest_eq_self _ hc.2.1
    have hlt : (m : ℤ) < 2 ^ 53 := by exact_mod_cast hc.1
    cases s <;> simpa [Sign.apply] using hlt

theorem nearest_apply (s : Sign) (x : ℚ) :
    nearest ((s.apply 1 : ℤ) * x) = (s.apply 1 : ℤ) * nearest x := by
  cases s <;> simp [Sign.apply, nearest_neg]

theorem apply_mul_apply (s t : Sign) (m n : ℕ) (u v : ℚ) :
    (s.apply m : ℤ) * u * ((t.apply n : ℤ) * v) = ((s * t).apply 1 : ℤ) * (m * n * (u * v)) := by
  cases s <;> cases t <;> simp [Sign.apply, mul_mul_mul_comm]

theorem apply_div_apply (s t : Sign) (m n : ℕ) (u v : ℚ) :
    (s.apply m : ℤ) * u / ((t.apply n : ℤ) * v) = ((s / t).apply 1 : ℤ) * (m * u / (n * v)) := by
  have hsign : (s / t).apply 1 = s.apply 1 * t.apply 1 := by cases s <;> cases t <;> rfl
  rw [hsign]
  cases s <;> cases t <;> simp [Sign.apply, div_neg, neg_div]

theorem rational_round (s : Sign) {m : ℕ} (hm : 0 < m) (e : ℤ) :
    Canonical (UnpackedFloat.round Format.binary64 s m e) ∧
      (reading (UnpackedFloat.round Format.binary64 s m e)).rational? =
        some ((s.apply 1 : ℤ) * nearest (m * 2 ^ e)) := by
  have htarget : Format.binary64.targetExponent (totalExponent m e) = lastPlace (m * 2 ^ e) := by
    rw [lastPlace_mul_zpow hm]
    change max ((m.log2 : ℤ) + 1 + e - 53) (-1074) = _
    omega
  set k := (e - lastPlace (m * 2 ^ e)).toNat with hk
  have hshifted : (m <<< k : ℕ) * (2 : ℚ) ^ (e - k) = m * 2 ^ e := by
    rw [Nat.shiftLeft_eq, zpow_sub₀ (by norm_num), Nat.cast_mul, Nat.cast_pow, Nat.cast_ofNat,
      zpow_natCast]
    field_simp
  have hpos : (0 : ℚ) < (m <<< k : ℕ) := by
    rw [Nat.shiftLeft_eq]
    positivity
  have h := rational_roundWithAccuracy s hpos (cutFrom_exact (m <<< k))
    (e := e - k) (by rw [hshifted]; omega)
  rw [hshifted] at h
  simpa only [UnpackedFloat.round, htarget, decreaseExponent] using h

theorem rational_normalize (m e : ℤ) (s : Sign) :
    Canonical (UnpackedFloat.normalize Format.binary64 m e s) ∧
      (reading (UnpackedFloat.normalize Format.binary64 m e s)).rational? =
        some (nearest (m * 2 ^ e)) := by
  unfold UnpackedFloat.normalize
  rcases lt_trichotomy m 0 with hm | rfl | hm
  · rw [show compare m 0 = .lt from Int.compare_eq_lt.2 hm]
    have h := rational_round .negative (m := (-m).toNat) (by omega) e
    have hcast : (((-m).toNat : ℕ) : ℚ) = -m := by
      exact_mod_cast Int.toNat_of_nonneg (by omega : 0 ≤ -m)
    simpa [Sign.apply, hcast, nearest_neg] using h
  · rw [show compare (0 : ℤ) 0 = .eq from rfl]
    refine ⟨trivial, ?_⟩
    simp
  · rw [show compare m 0 = .gt from Int.compare_eq_gt.2 hm]
    have h := rational_round .positive (m := m.toNat) (by omega) e
    have hcast : ((m.toNat : ℕ) : ℚ) = m := by
      exact_mod_cast Int.toNat_of_nonneg hm.le
    simpa [Sign.apply, hcast] using h

theorem apply_decreaseExponent (s : Sign) (m : ℕ) {e t : ℤ} (ht : t ≤ e) :
    ((s.apply (decreaseExponent m e t).1 : ℤ) : ℚ) * 2 ^ t = (s.apply m : ℤ) * 2 ^ e := by
  have hk : ((e - t).toNat : ℤ) = e - t := Int.toNat_of_nonneg (by omega)
  have hpow : (2 : ℚ) ^ (e - t).toNat * 2 ^ t = 2 ^ e := by
    rw [← zpow_natCast, hk, ← zpow_add₀ (by norm_num), sub_add_cancel]
  cases s <;> simp [Sign.apply, decreaseExponent, Nat.shiftLeft_eq, mul_assoc, hpow]

section Unpacked

variable {a b : UnpackedFloat} {x y : ℚ}

theorem rational_add (hca : Canonical a) (hcb : Canonical b)
    (ha : (reading a).rational? = some x) (hb : (reading b).rational? = some y) :
    Canonical (UnpackedFloat.add Format.binary64 a b) ∧
      (reading (UnpackedFloat.add Format.binary64 a b)).rational? = some (nearest (x + y)) := by
  have hx := nearest_of_canonical hca ha
  have hy := nearest_of_canonical hcb hb
  obtain ⟨s, rfl, rfl⟩ | ⟨s, m, e, hm, rfl, rfl⟩ := zero_or_finite ha
  · rw [zero_add, hy]
    obtain ⟨t, rfl, rfl⟩ | ⟨t, n, f, hn, rfl, rfl⟩ := zero_or_finite hb
    · rw [← hb]
      cases s <;> cases t <;> exact ⟨trivial, rfl⟩
    · exact ⟨hcb, hb⟩
  · obtain ⟨t, rfl, rfl⟩ | ⟨t, n, f, hn, rfl, rfl⟩ := zero_or_finite hb
    · rw [add_zero, hx]
      exact ⟨hca, ha⟩
    · have h := rational_normalize
        (s.apply (decreaseExponent m e (min e f)).1 + t.apply (decreaseExponent n f (min e f)).1)
        (min e f) .positive
      rw [Int.cast_add, add_mul, apply_decreaseExponent s m (min_le_left e f),
        apply_decreaseExponent t n (min_le_right e f)] at h
      exact h

theorem exponent_le_lastPlace_mul {s t : Sign} {m n : ℕ} {e f : ℤ} {hm : 0 < m} {hn : 0 < n}
    (hc : Canonical (.finite s m e hm)) (hd : Canonical (.finite t n f hn)) :
    e + f ≤ lastPlace ((m * n : ℕ) * 2 ^ (e + f)) := by
  rw [lastPlace_mul_zpow (Nat.mul_pos hm hn)]
  have hm' : m ≤ m * n := Nat.le_mul_of_pos_right m hn
  have hn' : n ≤ m * n := Nat.le_mul_of_pos_left n hm
  by_cases hfull : 2 ^ 52 ≤ m * n
  · have hlog := (Nat.le_log2 (Nat.mul_pos hm hn).ne').2 hfull
    omega
  · -- a product that is short of places has factors that are, and these lie as low as can be
    have he : e = -1074 := hc.2.2.resolve_left (by omega)
    have hf : f = -1074 := hd.2.2.resolve_left (by omega)
    omega

theorem rational_mul (hca : Canonical a) (hcb : Canonical b)
    (ha : (reading a).rational? = some x) (hb : (reading b).rational? = some y) :
    Canonical (UnpackedFloat.mul Format.binary64 a b) ∧
      (reading (UnpackedFloat.mul Format.binary64 a b)).rational? = some (nearest (x * y)) := by
  obtain ⟨s, rfl, rfl⟩ | ⟨s, m, e, hm, rfl, rfl⟩ := zero_or_finite ha
  · rw [zero_mul, nearest_zero]
    obtain ⟨t, rfl, rfl⟩ | ⟨t, n, f, hn, rfl, rfl⟩ := zero_or_finite hb
    · exact ⟨trivial, rational_zero _⟩
    · exact ⟨trivial, rational_zero _⟩
  · obtain ⟨t, rfl, rfl⟩ | ⟨t, n, f, hn, rfl, rfl⟩ := zero_or_finite hb
    · rw [mul_zero, nearest_zero]
      exact ⟨trivial, rational_zero _⟩
    · have hpos : (0 : ℚ) < (m * n : ℕ) := by exact_mod_cast Nat.mul_pos hm hn
      have h := rational_roundWithAccuracy (s * t) hpos (cutFrom_exact (m * n))
        (exponent_le_lastPlace_mul hca hcb)
      rw [apply_mul_apply, nearest_apply, ← zpow_add₀ (by norm_num), ← Nat.cast_mul]
      exact h

theorem targetExponent_le_lastPlace_div {m n : ℕ} (hm : 0 < m) (hn : 0 < n) (e f : ℤ) :
    Format.binary64.targetExponent (totalExponent m e - totalExponent n f) ≤
      lastPlace (m * 2 ^ e / (n * 2 ^ f)) := by
  have hx : (0 : ℚ) < m * 2 ^ e := mul_pos (by exact_mod_cast hm) (zpow_pos (by norm_num) e)
  have hy : (0 : ℚ) < n * 2 ^ f := mul_pos (by exact_mod_cast hn) (zpow_pos (by norm_num) f)
  have hxlog := Int.zpow_log_le_self (b := 2) (by norm_num) hx
  have hylog := Int.lt_zpow_succ_log_self (b := 2) (by norm_num) (n * 2 ^ f : ℚ)
  rw [log_of_floor (floor_natCast m) hm, Nat.cast_ofNat] at hxlog
  rw [log_of_floor (floor_natCast n) hn, Nat.cast_ofNat] at hylog
  have hlog : (m.log2 + e) - (n.log2 + f + 1) ≤ Int.log 2 ((m * 2 ^ e : ℚ) / (n * 2 ^ f)) := by
    rw [← Int.zpow_le_iff_le_log (by norm_num) (div_pos hx hy), Nat.cast_ofNat,
      zpow_sub₀ (by norm_num)]
    exact div_le_div₀ hx.le hxlog hy hylog.le
  have htarget : Format.binary64.targetExponent (totalExponent m e - totalExponent n f) =
      max ((m.log2 : ℤ) + 1 + e - (n.log2 + 1 + f) - 53) (-1074) := rfl
  rw [lastPlace, abs_of_pos (div_pos hx hy), htarget]
  omega

theorem cutFrom_divCore (m : ℕ) {n : ℕ} (hn : 0 < n) (e f : ℤ) :
    ∃ q t accuracy, divCore Format.binary64 m e n f = (q, t, accuracy) ∧
      CutFrom (m * 2 ^ e / (n * 2 ^ f) / 2 ^ t) (.ofMantissaAndAccuracy q accuracy) ∧
      t ≤ Format.binary64.targetExponent (totalExponent m e - totalExponent n f) := by
  refine ⟨_, _, _, rfl, ?_, min_le_right _ _⟩
  set t := min (e - f) (Format.binary64.targetExponent (totalExponent m e - totalExponent n f))
  have hk : ((e - f - t).toNat : ℤ) = e - f - t := by omega
  have hscaled : (m * 2 ^ e / (n * 2 ^ f) / 2 ^ t : ℚ) =
      ((m <<< (e - f - t).toNat : ℕ) : ℚ) / n := by
    rw [Nat.shiftLeft_eq, Nat.cast_mul, Nat.cast_pow, Nat.cast_ofNat, ← zpow_natCast, hk,
      zpow_sub₀ (by norm_num), zpow_sub₀ (by norm_num)]
    field_simp
  rw [hscaled]
  exact cutFrom_quotient _ hn

theorem rational_div (ha : (reading a).rational? = some x) (hb : (reading b).rational? = some y)
    (hy : y ≠ 0) :
    Canonical (UnpackedFloat.div Format.binary64 a b) ∧
      (reading (UnpackedFloat.div Format.binary64 a b)).rational? = some (nearest (x / y)) := by
  obtain ⟨t, rfl, rfl⟩ | ⟨t, n, f, hn, rfl, rfl⟩ := zero_or_finite hb
  · exact absurd rfl hy
  · obtain ⟨s, rfl, rfl⟩ | ⟨s, m, e, hm, rfl, rfl⟩ := zero_or_finite ha
    · rw [zero_div, nearest_zero]
      exact ⟨trivial, rational_zero _⟩
    · obtain ⟨q, k, accuracy, hcore, hcut, hk⟩ := cutFrom_divCore m hn e f
      have hz : (0 : ℚ) < m * 2 ^ e / (n * 2 ^ f) := by positivity
      have hpow : (0 : ℚ) < 2 ^ k := zpow_pos (by norm_num) k
      have hback : m * 2 ^ e / (n * 2 ^ f) / 2 ^ k * 2 ^ k = (m * 2 ^ e / (n * 2 ^ f) : ℚ) :=
        div_mul_cancel₀ _ hpow.ne'
      have h := rational_roundWithAccuracy (s / t) (div_pos hz hpow) hcut
        (by rw [hback]; exact hk.trans (targetExponent_le_lastPlace_div hm hn e f))
      rw [hback, ← nearest_apply, ← apply_div_apply] at h
      simpa only [UnpackedFloat.div, hcore] using h

end Unpacked

theorem value_of_rounded {u : UnpackedFloat} {v : ℚ}
    (h : Canonical u ∧ (reading u).rational? = some (nearest v)) (hfit : |nearest v| < overflow) :
    value? ⟨Float.Model.pack u⟩ = some (nearest v) :=
  value_pack h.1 h.2 hfit

section

variable {a b : Float} {x y : ℚ}

theorem value_add (ha : value? a = some x) (hb : value? b = some y)
    (hfit : |nearest (x + y)| < overflow) : value? (a + b) = some (nearest (x + y)) := by
  have hca := canonical_unpack ha
  have hcb := canonical_unpack hb
  rw [value_eq] at ha hb
  exact value_of_rounded (rational_add hca hcb ha hb) hfit

theorem value_mul (ha : value? a = some x) (hb : value? b = some y)
    (hfit : |nearest (x * y)| < overflow) : value? (a * b) = some (nearest (x * y)) := by
  have hca := canonical_unpack ha
  have hcb := canonical_unpack hb
  rw [value_eq] at ha hb
  exact value_of_rounded (rational_mul hca hcb ha hb) hfit

theorem value_div (ha : value? a = some x) (hb : value? b = some y) (hy : y ≠ 0)
    (hfit : |nearest (x / y)| < overflow) : value? (a / b) = some (nearest (x / y)) := by
  rw [value_eq] at ha hb
  exact value_of_rounded (rational_div ha hb hy) hfit

end

theorem value_toFloat (n : UInt64) (hfit : |nearest n.toNat| < overflow) :
    value? n.toFloat = some (nearest n.toNat) := by
  have h := rational_normalize n.toNat 0 .positive
  rw [zpow_zero, mul_one, Int.cast_natCast] at h
  exact value_of_rounded h hfit

end LeibnizSieve.Binary64
