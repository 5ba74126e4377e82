import LeibnizSieve.Proofs.Binary64.Denotation
import LeibnizSieve.Proofs.Binary64.Order
import LeibnizSieve.Proofs.Leibniz.FloatSum

/-! A term by itself, at any index that is a word. Its denominator is rounded three times, and
rounding keeps order, so the magnitude of a term never grows. As long as the doubled index is exact
the denominator is the one of the loop, and the loop is a fold over the terms. -/

namespace LeibnizSieve.Leibniz

open Binary64

open Decimal (Reading)

def roundedDenominator (n : ℕ) : ℚ := nearest (nearest (2 * nearest n) + 1)

section Denominator

theorem roundedDenominator_mono : Monotone roundedDenominator := by
  intro m n h
  have hindex : nearest m ≤ nearest n := nearest_mono (by exact_mod_cast h)
  have hdouble : nearest (2 * nearest m) ≤ nearest (2 * nearest n) :=
    nearest_mono (by linarith)
  exact nearest_mono (by linarith)

theorem roundedDenominator_eq {n : ℕ} (hn : n ≤ 2 ^ 53) :
    roundedDenominator n = nearest (2 * n + 1) := by
  have hindex : nearest n = n := by
    simpa using nearest_natCast_mul_zpow (e := 0) hn (by norm_num)
  have hdouble : nearest (2 * n) = 2 * n := by
    simpa [mul_comm] using nearest_natCast_mul_zpow (e := 1) hn (by norm_num)
  rw [roundedDenominator, hindex, hdouble]

theorem nearest_two_pow_add_one : nearest (2 ^ 65 + 1) = 2 ^ 65 := by
  have hulp : ulp (2 ^ 65 + 1) = 2 ^ 13 := by
    rw [ulp_of_mem (k := 65) (by norm_num) (by norm_num) (by norm_num)]
    norm_num
  have hround : nearestInt ((2 ^ 65 + 1) / 2 ^ 13) = 2 ^ 52 := by
    apply nearestInt_of_near <;> norm_num
  rw [nearest, hulp, hround]
  norm_num

theorem roundedDenominator_mem {n : ℕ} (hn : n ≤ 2 ^ 64) :
    1 ≤ roundedDenominator n ∧ roundedDenominator n ≤ 2 ^ 65 := by
  have hzero : roundedDenominator 0 = 1 := by
    rw [roundedDenominator_eq (by norm_num)]
    simpa using nearest_natCast (n := 1) (by norm_num)
  have hlast : roundedDenominator (2 ^ 64) = 2 ^ 65 := by
    rw [roundedDenominator, Nat.cast_pow, Nat.cast_ofNat, nearest_two_pow, ← pow_succ',
      nearest_two_pow, nearest_two_pow_add_one]
  -- order is kept, so the first and the last index bound all others
  constructor
  · exact hzero.symm.trans_le (roundedDenominator_mono (Nat.zero_le n))
  · exact (roundedDenominator_mono hn).trans_eq hlast

end Denominator

section Values

theorem value_index (i : UInt64) :
    value? i.toFloat = some (nearest i.toNat) ∧ 0 ≤ nearest i.toNat ∧ nearest i.toNat ≤ 2 ^ 64 := by
  have hle : (i.toNat : ℚ) ≤ 2 ^ 64 := by exact_mod_cast i.toNat_lt.le
  have h0 : (0 : ℚ) ≤ i.toNat := Nat.cast_nonneg _
  refine ⟨value_toFloat i (abs_nearest_lt_overflow h0 (by linarith)), nearest_nonneg h0, ?_⟩
  exact (nearest_mono hle).trans_eq (nearest_two_pow 64)

theorem value_floatDenominator (i : UInt64) :
    value? (2.0 * i.toFloat + 1.0) = some (roundedDenominator i.toNat) := by
  have htwo : value? 2.0 = some 2 := by
    have h : Reading.ofFloat 2.0 = .finite false (2 ^ 52) (-51) := by decide
    norm_num [value?, h, Reading.rational?]
  have hone : value? 1.0 = some 1 := by
    have h : Reading.ofFloat 1.0 = .finite false (2 ^ 52) (-52) := by decide
    norm_num [value?, h, Reading.rational?]
  obtain ⟨hindex, h0, hle⟩ := value_index i
  have hdouble := value_mul htwo hindex
    (abs_nearest_lt_overflow (by linarith) (by linarith))
  have h0' : 0 ≤ nearest (2 * nearest i.toNat) := nearest_nonneg (by linarith)
  have hle' : nearest (2 * nearest i.toNat) ≤ 2 ^ 65 :=
    (nearest_mono (by linarith)).trans_eq (nearest_two_pow 65)
  exact value_add hdouble hone (abs_nearest_lt_overflow (by linarith) (by linarith))

theorem sign_eq (i : UInt64) : (if i % 2 = 0 then 1.0 else -1.0 : Float) =
    if (PartialSum.ofCount i.toNat).subtracts then -1.0 else 1.0 := by
  have hparity : i % 2 = 0 ↔ i.toNat % 2 = 0 := by
    rw [← UInt64.toNat_inj, UInt64.toNat_mod]
    rfl
  rw [PartialSum.subtracts_ofCount, if_congr hparity rfl rfl]
  rcases Nat.mod_two_eq_zero_or_one i.toNat with h | h <;> simp [h]

theorem term_eq (i : UInt64) :
    term i = (if (PartialSum.ofCount i.toNat).subtracts then -1.0 else 1.0) * 4.0 /
      (2.0 * i.toFloat + 1.0) := by
  rw [← sign_eq]
  rfl

def termMagnitude (n : ℕ) : ℚ := nearest (4 / roundedDenominator n)

theorem value_term (i : UInt64) :
    value? (term i) = some ((-1) ^ i.toNat * termMagnitude i.toNat) := by
  obtain ⟨hlo, hhi⟩ := roundedDenominator_mem i.toNat_lt.le
  have hpos : 0 < roundedDenominator i.toNat := by linarith
  have hfit : |nearest (4 / roundedDenominator i.toNat)| < overflow := by
    apply abs_nearest_lt_overflow (by positivity)
    rw [div_le_iff₀ hpos]
    linarith
  have h := value_div (value_coefficient i.toNat) (value_floatDenominator i) hpos.ne'
  rw [nearest_coefficient, mul_div_assoc, nearest_neg_one_pow_mul, abs_mul, abs_neg_one_pow,
    one_mul] at h
  rw [term_eq]
  exact h hfit

end Values

section Magnitude

variable {m n : ℕ}

theorem termMagnitude_mem (hn : n ≤ 2 ^ 64) :
    2 ^ (-63 : ℤ) ≤ termMagnitude n ∧ termMagnitude n ≤ 4 := by
  obtain ⟨hlo, hhi⟩ := roundedDenominator_mem hn
  have hpos : 0 < roundedDenominator n := by linarith
  constructor
  · have hle : 2 ^ (-63 : ℤ) ≤ 4 / roundedDenominator n := by
      rw [le_div_iff₀ hpos]
      norm_num
      linarith
    exact (nearest_zpow (by norm_num)).symm.trans_le (nearest_mono hle)
  · have hle : 4 / roundedDenominator n ≤ 4 := by
      rw [div_le_iff₀ hpos]
      linarith
    exact (nearest_mono hle).trans_eq nearest_four

theorem termMagnitude_pos (hn : n ≤ 2 ^ 64) : 0 < termMagnitude n :=
  (zpow_pos (by norm_num) _).trans_le (termMagnitude_mem hn).1

theorem termMagnitude_anti (h : m ≤ n) (hn : n ≤ 2 ^ 64) : termMagnitude n ≤ termMagnitude m := by
  have hpos : 0 < roundedDenominator m := by linarith [(roundedDenominator_mem (h.trans hn)).1]
  have hle := roundedDenominator_mono h
  exact nearest_mono (by gcongr)

theorem abs_neg_one_pow_mul_termMagnitude (hn : n ≤ 2 ^ 64) :
    |(-1) ^ n * termMagnitude n| = termMagnitude n := by
  rw [abs_mul, abs_neg_one_pow, one_mul, abs_of_pos (termMagnitude_pos hn)]

theorem sign_neg_one_pow_mul {x : ℚ} (hx : 0 < x) (n : ℕ) :
    (0 < (-1) ^ n * x ↔ Even n) ∧ ((-1) ^ n * x < 0 ↔ Odd n) := by
  rcases Nat.even_or_odd n with h | h
  · simp [h.neg_one_pow, h, Nat.not_odd_iff_even.2 h, hx, hx.le]
  · simp [h.neg_one_pow, h, Nat.not_even_iff_odd.2 h, hx, hx.le]

end Magnitude

/-- At every index that is a word a term is a number other than zero. Its sign is that of the
index, and its magnitude stays within bounds and never grows. -/
theorem term_alternates_antitone (i : UInt64) : ∃ t : ℚ, value? (term i) = some t ∧ t ≠ 0 ∧
    (0 < t ↔ Even i.toNat) ∧ (t < 0 ↔ Odd i.toNat) ∧ 2 ^ (-63 : ℤ) ≤ |t| ∧ |t| ≤ 4 ∧
    ∀ j, i ≤ j → ∃ u : ℚ, value? (term j) = some u ∧ |u| ≤ |t| := by
  obtain ⟨hlo, hhi⟩ := termMagnitude_mem i.toNat_lt.le
  have hpos := termMagnitude_pos i.toNat_lt.le
  have habs := abs_neg_one_pow_mul_termMagnitude i.toNat_lt.le
  obtain ⟨heven, hodd⟩ := sign_neg_one_pow_mul hpos i.toNat
  refine ⟨_, value_term i, by simp [hpos.ne'], heven, hodd, hlo.trans_eq habs.symm,
    habs.trans_le hhi, ?_⟩
  intro j hij
  refine ⟨_, value_term j, ?_⟩
  rw [habs, abs_neg_one_pow_mul_termMagnitude j.toNat_lt.le]
  exact termMagnitude_anti (UInt64.le_iff_toNat_le.1 hij) j.toNat_lt.le

section Sum

variable {i : UInt64}

theorem value_wordDenominator (hi : i.toNat ≤ 2 ^ 53) :
    value? (2 * i + 1).toFloat = some (nearest (2 * i.toNat + 1)) := by
  rw [value_wrapped, Nat.mod_eq_of_lt (by omega)]

theorem floatDenominator_eq (hi : i.toNat ≤ 2 ^ 53) :
    2.0 * i.toFloat + 1.0 = (2 * i + 1).toFloat := by
  have hfloat := value_floatDenominator i
  have hpos := (roundedDenominator_mem i.toNat_lt.le).1
  rw [roundedDenominator_eq hi] at hfloat hpos
  exact eq_of_value hfloat (value_wordDenominator hi) (by linarith)

theorem sum_next {n : ℕ} (hn : n ≤ 2 ^ 53) :
    ((PartialSum.ofCount n).next (UInt64.ofNat n)).sum =
      (PartialSum.ofCount n).sum + term (UInt64.ofNat n) := by
  have hindex : (UInt64.ofNat n).toNat = n := UInt64.toNat_ofNat_of_lt' (hn.trans_lt (by decide))
  rw [term_eq, floatDenominator_eq (hindex.trans_le hn), hindex]
  rfl

theorem sum_ofCount {n : ℕ} (hn : n ≤ 2 ^ 53) : (PartialSum.ofCount n).sum =
    (List.range n).foldl (fun sum i => sum + term (UInt64.ofNat i)) 0.0 := by
  induction n with
  | zero => rfl
  | succ n ih =>
    rw [PartialSum.ofCount_succ, sum_next (by omega), ih (by omega), List.range_succ,
      List.foldl_concat]

end Sum

/-- Up to `2 ^ 53` a term and a turn of the loop divide by the same float, which is exact up to half
of that. So the loop adds up the terms, from the first one on. -/
theorem leibnizPi_sum_of_terms {n : UInt64} (hn : n.toNat ≤ 2 ^ 53) :
    (∃ d : Float, d = 2.0 * n.toFloat + 1.0 ∧ d = (2 * n + 1).toFloat ∧
      (n.toNat < 2 ^ 52 → value? d = some (2 * n.toNat + 1 : ℚ)) ∧
      term n = (if n % 2 = 0 then 1.0 else -1.0) * 4.0 / d ∧
      ∀ s : PartialSum, (s.next n).sum = s.sum + (if s.subtracts then -1.0 else 1.0) * 4.0 / d) ∧
    leibnizPi n =
      (List.range n.toNat).foldl (fun sum i => sum + term (UInt64.ofNat i)) 0.0 := by
  have hsame := floatDenominator_eq hn
  refine ⟨⟨_, hsame.symm, rfl, ?_, ?_, fun _ => rfl⟩, sum_ofCount hn⟩
  · intro hlt
    have hexact : nearest (2 * n.toNat + 1) = 2 * n.toNat + 1 := by
      exact_mod_cast nearest_natCast (n := 2 * n.toNat + 1) (by omega)
    rw [value_wordDenominator hn, hexact]
  · rw [← hsame]
    rfl

theorem leibnizPi_sum_of_terms_inexact :
    (4503599627370497 : UInt64).toNat ≤ 2 ^ 53 ∧
    2.0 * (4503599627370497 : UInt64).toFloat + 1.0 = (9007199254740995 : UInt64).toFloat ∧
    leibnizPi 4503599627370497 = (List.range 4503599627370497).foldl
      (fun sum i => sum + term (UInt64.ofNat i)) 0.0 := by
  have hn : (4503599627370497 : UInt64).toNat ≤ 2 ^ 53 := by decide
  obtain ⟨⟨d, hfloat, hword, -⟩, hsum⟩ := leibnizPi_sum_of_terms hn
  exact ⟨hn, hfloat.symm.trans hword, hsum⟩

end LeibnizSieve.Leibniz
