import LeibnizSieve.Leibniz.Series
import LeibnizSieve.Proofs.Binary64.Operations

/-! The sum of the series over rational numbers with every operation rounded. What one step of it
does is known as long as the sum stays between 2 and 4: it stays on one grid there, and the step is
a rounded summand up to half a unit of the grid. -/

namespace LeibnizSieve.Leibniz

open Binary64

/-- The sum over rational numbers, each operation rounded. -/
def roundedSum : ℕ → ℚ
  | 0 => 0
  | n + 1 => nearest (roundedSum n + nearest (nearest ((-1) ^ n * 4) / nearest (2 * n + 1)))

def magnitude (i : ℕ) : ℚ := nearest (4 / (2 * i + 1))

theorem nearest_four : nearest 4 = 4 := by
  exact_mod_cast nearest_natCast (n := 4) (by norm_num)

theorem nearest_neg_one_pow_mul (n : ℕ) (x : ℚ) :
    nearest ((-1) ^ n * x) = (-1) ^ n * nearest x := by
  rcases neg_one_pow_eq_or ℚ n with h | h
  · rw [h, one_mul, one_mul]
  · rw [h, neg_one_mul, neg_one_mul, nearest_neg]

theorem nearest_coefficient (n : ℕ) : nearest ((-1) ^ n * 4) = (-1) ^ n * 4 := by
  rw [nearest_neg_one_pow_mul, nearest_four]

theorem nearest_denominator {n : ℕ} (hn : n < 2 ^ 50) : nearest (2 * n + 1) = 2 * n + 1 := by
  exact_mod_cast nearest_natCast (n := 2 * n + 1) (by omega)

theorem nearest_summand {n : ℕ} (hn : n < 2 ^ 50) :
    nearest (nearest ((-1) ^ n * 4) / nearest (2 * n + 1)) = (-1) ^ n * magnitude n := by
  rw [nearest_denominator hn, nearest_coefficient, magnitude, mul_div_assoc, nearest_neg_one_pow_mul]

theorem roundedSum_succ {n : ℕ} (hn : n < 2 ^ 50) :
    roundedSum (n + 1) = nearest (roundedSum n + (-1) ^ n * magnitude n) := by
  rw [roundedSum, nearest_summand hn]

/-- The distance of neighbouring numbers between 2 and 4. -/
def unit : ℚ := 2 ^ (-51 : ℤ)

theorem unit_pos : 0 < unit := by
  rw [unit]
  positivity

theorem unit_le : unit ≤ 1 / 1024 := by norm_num [unit]

section Magnitude

variable {i : ℕ}

theorem abs_magnitude_sub_le (hi : i < 2 ^ 50) :
    |magnitude i - 4 / (2 * i + 1)| ≤ 4 / (2 * i + 1) * 2 ^ (-53 : ℤ) := by
  refine abs_nearest_sub_le_mul ?_
  have hi' : ((i : ℕ) : ℚ) + 1 ≤ 2 ^ 50 := by exact_mod_cast hi
  calc (2 : ℚ) ^ (-1022 : ℤ) ≤ 2 ^ (-49 : ℤ) := zpow_le_zpow_right₀ (by norm_num) (by norm_num)
    _ ≤ 4 / (2 * i + 1) := by
      rw [le_div_iff₀ (by positivity), zpow_neg, inv_mul_le_iff₀ (by positivity)]
      norm_num at hi' ⊢
      linarith

theorem magnitude_succ_lt (hi : i + 1 < 2 ^ 50) : magnitude (i + 1) < magnitude i := by
  have hi' : ((i : ℕ) : ℚ) + 1 ≤ 2 ^ 50 := by exact_mod_cast hi.le
  have hlo := (abs_le.1 (abs_magnitude_sub_le (i := i) (by omega))).1
  have hhi := (abs_le.1 (abs_magnitude_sub_le hi)).2
  push_cast at hhi
  have hgap : (4 : ℚ) / (2 * (i + 1) + 1) + 4 / (2 * (i + 1) + 1) * 2 ^ (-53 : ℤ) <
      4 / (2 * i + 1) - 4 / (2 * i + 1) * 2 ^ (-53 : ℤ) := by
    have hunit : (i + 1 : ℚ) * 2 ^ (-53 : ℤ) ≤ 1 / 8 := by
      norm_num at hi' ⊢
      linarith
    generalize (2 : ℚ) ^ (-53 : ℤ) = u at hunit
    rw [div_mul_eq_mul_div, div_mul_eq_mul_div, ← add_div, ← sub_div,
      div_lt_div_iff₀ (by positivity) (by positivity)]
    linarith
  linarith

theorem le_magnitude (hi : i < 2 ^ 50) : 2 * unit ≤ magnitude i := by
  have hi' : ((i : ℕ) : ℚ) + 1 ≤ 2 ^ 50 := by exact_mod_cast hi
  have hlo := (abs_le.1 (abs_magnitude_sub_le hi)).1
  have hexact : 2 ^ (-49 : ℤ) ≤ (4 / (2 * i + 1) : ℚ) := by
    rw [le_div_iff₀ (by positivity), zpow_neg, inv_mul_le_iff₀ (by positivity)]
    norm_num at hi' ⊢
    linarith
  norm_num [unit] at hlo hexact ⊢
  linarith

theorem magnitude_zero : magnitude 0 = 4 := by
  rw [magnitude]
  norm_num [nearest_four]

theorem abs_magnitude_sub_le_of_pos (hpos : 1 ≤ i) (hi : i < 2 ^ 50) :
    |magnitude i - 4 / (2 * i + 1)| ≤ unit / 2 := by
  have hpos' : (1 : ℚ) ≤ i := by exact_mod_cast hpos
  have hexact : (4 / (2 * i + 1) : ℚ) ≤ 2 := by
    rw [div_le_iff₀ (by positivity)]
    linarith
  calc |magnitude i - 4 / (2 * i + 1)| ≤ 4 / (2 * i + 1) * 2 ^ (-53 : ℤ) :=
        abs_magnitude_sub_le hi
    _ ≤ 2 * 2 ^ (-53 : ℤ) := mul_le_mul_of_nonneg_right hexact (by positivity)
    _ = unit / 2 := by norm_num [unit]

end Magnitude

def OnGrid (x : ℚ) : Prop := ∃ k : ℤ, x = k * unit

theorem nearest_mem {x : ℚ} (hlo : 2 ≤ x) (hhi : x < 4) :
    OnGrid (nearest x) ∧ |nearest x - x| ≤ unit / 2 := by
  have hulp : ulp x = unit :=
    ulp_of_mem (k := 1) (by norm_num) (by norm_num; exact hlo) (by norm_num; exact hhi)
  constructor
  · exact ⟨nearestInt (x / ulp x), by rw [nearest, hulp]⟩
  · have h := abs_nearest_sub_le x
    rw [hulp] at h
    exact h

theorem OnGrid.le {x y : ℚ} (hx : OnGrid x) (hy : OnGrid y) (h : x < y + unit) : x ≤ y := by
  obtain ⟨k, rfl⟩ := hx
  obtain ⟨l, rfl⟩ := hy
  have hkl : (k : ℚ) < l + 1 := by
    by_contra hge
    have := mul_le_mul_of_nonneg_right (not_lt.1 hge) unit_pos.le
    linarith
  have hkl' : k ≤ l := Int.lt_add_one_iff.1 (by exact_mod_cast hkl)
  exact mul_le_mul_of_nonneg_right (by exact_mod_cast hkl') unit_pos.le

end LeibnizSieve.Leibniz
