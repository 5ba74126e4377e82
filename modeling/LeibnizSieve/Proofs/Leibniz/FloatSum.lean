import LeibnizSieve.Proofs.Leibniz.SumRange

/-! The loop over floats. Its denominators are words, and start over from one at the index `2 ^ 63`.
Up to there, what it adds up denotes the sum over rational numbers with every operation rounded. -/

namespace LeibnizSieve.Leibniz

open Binary64

open Decimal (Reading)

theorem lt_overflow {x : ℚ} (h : |x| ≤ 2 ^ 66) : |x| < overflow := by
  refine lt_of_le_of_lt h ?_
  rw [← zpow_natCast]
  exact zpow_lt_zpow_right₀ (by norm_num) (by norm_num)

theorem abs_nearest_lt_overflow {x : ℚ} (h0 : 0 ≤ x) (hx : x ≤ 2 ^ 66) :
    |nearest x| < overflow := by
  apply lt_overflow
  rw [abs_of_nonneg (nearest_nonneg h0), ← nearest_two_pow]
  exact nearest_mono hx

theorem value_coefficient (n : ℕ) :
    value? ((if (PartialSum.ofCount n).subtracts then -1.0 else 1.0) * 4.0) =
      some (nearest ((-1) ^ n * 4)) := by
  have hplus : Reading.ofFloat (1.0 * 4.0) = .finite false (2 ^ 52) (-50) := by decide
  have hminus : Reading.ofFloat (-1.0 * 4.0) = .finite true (2 ^ 52) (-50) := by decide
  rw [PartialSum.subtracts_ofCount, nearest_coefficient]
  rcases Nat.even_or_odd n with hn | hn
  · rw [hn.neg_one_pow, if_neg (by simpa using Nat.even_iff.1 hn)]
    norm_num [value?, hplus, Reading.rational?]
  · rw [hn.neg_one_pow, if_pos (by simpa using Nat.odd_iff.1 hn)]
    norm_num [value?, hminus, Reading.rational?]

theorem toNat_wrapped (i : UInt64) : (2 * i + 1).toNat = 2 * (i.toNat % 2 ^ 63) + 1 := by
  have hi := i.toNat_lt
  have htwo : (2 : UInt64).toNat = 2 := rfl
  have hone : (1 : UInt64).toNat = 1 := rfl
  rw [UInt64.toNat_add, UInt64.toNat_mul, htwo, hone]
  omega

theorem value_wrapped (i : UInt64) :
    value? (2 * i + 1).toFloat = some (nearest (2 * (i.toNat % 2 ^ 63 : ℕ) + 1)) := by
  have hlt := (2 * i + 1).toNat_lt
  have hle : (((2 * i + 1).toNat : ℕ) : ℚ) ≤ 2 ^ 66 := by exact_mod_cast (by omega)
  have h := value_toFloat (2 * i + 1) (abs_nearest_lt_overflow (Nat.cast_nonneg _) hle)
  rw [toNat_wrapped] at h
  exact_mod_cast h

section Turn

variable {n : ℕ}

theorem value_turn (hn : n < 2 ^ 64) :
    value? ((if (PartialSum.ofCount n).subtracts then -1.0 else 1.0) * 4.0 /
      (2 * UInt64.ofNat n + 1).toFloat) = some ((-1) ^ n * summand (n % 2 ^ 63)) := by
  have hindex : (UInt64.ofNat n).toNat = n := UInt64.toNat_ofNat_of_lt' hn
  have hdenominator := value_wrapped (UInt64.ofNat n)
  rw [hindex] at hdenominator
  have hpos := one_le_nearest_denominator (n % 2 ^ 63)
  have hfit : |(-1) ^ n * summand (n % 2 ^ 63)| < overflow := by
    apply lt_overflow
    rw [abs_signed_summand]
    linarith [summand_le_four (n % 2 ^ 63)]
  rw [← nearest_signed_summand] at hfit ⊢
  exact value_div (value_coefficient n) hdenominator (by linarith) hfit

theorem value_succ {x : ℚ} (hn : n < 2 ^ 64) (hx : |x| ≤ 8)
    (h : value? (PartialSum.ofCount n).sum = some x) :
    value? (PartialSum.ofCount (n + 1)).sum =
      some (nearest (x + (-1) ^ n * summand (n % 2 ^ 63))) := by
  have hle : |x + (-1) ^ n * summand (n % 2 ^ 63)| ≤ 2 ^ 66 := by
    refine (abs_add_le _ _).trans ?_
    rw [abs_signed_summand]
    linarith [summand_le_four (n % 2 ^ 63)]
  have hfit := abs_nearest_lt_overflow (abs_nonneg _) hle
  rw [← abs_nearest, abs_abs] at hfit
  rw [PartialSum.ofCount_succ]
  exact value_add h (value_turn hn) hfit

end Turn

/-- As long as no denominator is repeated, the loop computes the sum with each operation rounded. -/
theorem value_ofCount {n : ℕ} (hn : n ≤ 2 ^ 63) :
    value? (PartialSum.ofCount n).sum = some (roundedSum n) := by
  induction n with
  | zero =>
    have h : Reading.ofFloat PartialSum.start.sum = .finite false 0 (-1074) := by decide
    norm_num [value?, h, Reading.rational?, roundedSum]
  | succ n ih =>
    have h := value_succ (by omega) (by linarith [abs_roundedSum_le n]) (ih (by omega))
    rwa [Nat.mod_eq_of_lt (by omega), ← nearest_signed_summand] at h

theorem value_leibnizPi {n : ℕ} (hn : n ≤ 2 ^ 50) :
    value? (leibnizPi (UInt64.ofNat n)) = some (roundedSum n) := by
  have hn' : n < UInt64.size := lt_of_le_of_lt hn (by decide)
  rw [leibnizPi, UInt64.toNat_ofNat_of_lt' hn', value_ofCount (hn.trans (by norm_num))]

end LeibnizSieve.Leibniz
