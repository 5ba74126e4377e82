import LeibnizSieve.Proofs.Leibniz.FloatSum

/-! The computed partial sums converge as the series does, up to the rounding of their steps. -/

namespace LeibnizSieve.Leibniz

open Binary64 Filter Finset

open scoped Topology

section Series

theorem antitone_summand : Antitone fun i : ℕ => (4 : ℝ) / (2 * i + 1) := by
  intro i j hij
  have hij' : (i : ℝ) ≤ j := by exact_mod_cast hij
  dsimp only
  gcongr

theorem tendsto_sum_pi :
    Tendsto (fun n => ∑ i ∈ range n, (-1 : ℝ) ^ i * (4 / (2 * i + 1))) atTop (𝓝 Real.pi) := by
  have h := Real.tendsto_sum_pi_div_four.const_mul 4
  rw [mul_div_cancel₀ _ (by norm_num : (4 : ℝ) ≠ 0)] at h
  refine h.congr fun n => ?_
  rw [mul_sum]
  exact sum_congr rfl fun i _ => by ring

theorem abs_sum_sub_pi_le (n : ℕ) :
    |∑ i ∈ range n, (-1 : ℝ) ^ i * (4 / (2 * i + 1)) - Real.pi| ≤ 4 / (2 * n + 1) := by
  have hsucc := sum_range_succ (fun i : ℕ => (-1 : ℝ) ^ i * (4 / (2 * i + 1))) n
  have hpos : (0 : ℝ) < 4 / (2 * n + 1) := by positivity
  -- the limit lies between this sum and the next one, which are a summand apart
  rcases Nat.even_or_odd' n with ⟨k, rfl | rfl⟩
  · have hlo := antitone_summand.alternating_series_le_tendsto tendsto_sum_pi k
    have hhi := antitone_summand.tendsto_le_alternating_series tendsto_sum_pi k
    rw [(even_two_mul k).neg_one_pow] at hsucc
    rw [abs_le]
    constructor <;> linarith
  · have hlo := antitone_summand.alternating_series_le_tendsto tendsto_sum_pi (k + 1)
    have hhi := antitone_summand.tendsto_le_alternating_series tendsto_sum_pi k
    rw [(odd_two_mul_add_one k).neg_one_pow] at hsucc
    rw [mul_add_one] at hlo
    rw [abs_le]
    constructor <;> linarith

end Series

theorem abs_roundedSum_sub_le {n : ℕ} (h1 : 1 ≤ n) (hn : n ≤ 2 ^ 50) :
    |roundedSum n - ∑ i ∈ range n, (-1) ^ i * (4 / (2 * (i : ℚ) + 1))| ≤ n * unit := by
  have hu := unit_pos
  rcases Nat.eq_or_lt_of_le h1 with rfl | h2
  · norm_num [roundedSum_one]
    exact hu.le
  · -- a step adds half a unit from its summand and half a unit from its sum
    induction n, (show 2 ≤ n from h2) using Nat.le_induction with
    | base =>
      have h := roundedSum_two.2
      norm_num [sum_range_succ]
      linarith
    | succ n h2' ih =>
      have hsum := ih (by omega) (by omega) h2'
      have hsummand := abs_magnitude_sub_le_of_pos (i := n) (by omega) (by omega)
      have hnear := (step h2' (by omega)).near
      rw [sum_range_succ]
      set S := ∑ i ∈ range n, (-1) ^ i * (4 / (2 * (i : ℚ) + 1))
      calc |roundedSum (n + 1) - (S + (-1) ^ n * (4 / (2 * n + 1)))|
          = |(roundedSum (n + 1) - (roundedSum n + (-1) ^ n * magnitude n)) +
              ((roundedSum n - S) + (-1) ^ n * (magnitude n - 4 / (2 * n + 1)))| := by
            congr 1
            ring
        _ ≤ unit / 2 + (n * unit + unit / 2) := by
            refine (abs_add_le _ _).trans (add_le_add hnear ((abs_add_le _ _).trans ?_))
            refine add_le_add hsum ?_
            rwa [abs_mul, abs_neg_one_pow, one_mul]
        _ = (n + 1 : ℕ) * unit := by
            push_cast
            ring

/-- The number that a computed sum stands for is the partial sum up to a unit for each term, so it
lies as close to the number the series converges to as the exact one, up to that allowance. -/
theorem leibnizPi_converges {n : ℕ} (h1 : 1 ≤ n) (hn : n ≤ 2 ^ 50) :
    ∃ x : ℚ, value? (leibnizPi (UInt64.ofNat n)) = some x ∧
      |x - ∑ i ∈ range n, (-1) ^ i * (4 / (2 * (i : ℚ) + 1))| ≤ n * 2 ^ (-51 : ℤ) ∧
      |(x : ℝ) - Real.pi| ≤ 4 / (2 * n + 1) + n * 2 ^ (-51 : ℤ) := by
  have herror := abs_roundedSum_sub_le h1 hn
  refine ⟨roundedSum n, value_leibnizPi hn, herror, ?_⟩
  have herror' : |(roundedSum n : ℝ) - ∑ i ∈ range n, (-1) ^ i * (4 / (2 * (i : ℝ) + 1))| ≤
      n * 2 ^ (-51 : ℤ) := by
    have h := (Rat.cast_le (K := ℝ)).2 herror
    rw [unit] at h
    push_cast at h
    exact h
  calc |(roundedSum n : ℝ) - Real.pi|
      ≤ |(roundedSum n : ℝ) - ∑ i ∈ range n, (-1) ^ i * (4 / (2 * (i : ℝ) + 1))| +
          |∑ i ∈ range n, (-1) ^ i * (4 / (2 * (i : ℝ) + 1)) - Real.pi| := abs_sub_le _ _ _
    _ ≤ n * 2 ^ (-51 : ℤ) + 4 / (2 * n + 1) := add_le_add herror' (abs_sum_sub_pi_le n)
    _ = 4 / (2 * n + 1) + n * 2 ^ (-51 : ℤ) := add_comm _ _

theorem leibnizPi_converges_three :
    1 ≤ 3 ∧ 3 ≤ 2 ^ 50 ∧ ∃ x : ℚ, value? (leibnizPi 3) = some x ∧
      |x - 52 / 15| ≤ 3 * 2 ^ (-51 : ℤ) ∧ |(x : ℝ) - Real.pi| ≤ 4 / 7 + 3 * 2 ^ (-51 : ℤ) := by
  obtain ⟨x, hx, hsum, hpi⟩ := leibnizPi_converges (n := 3) (by norm_num) (by norm_num)
  refine ⟨by norm_num, by norm_num, x, hx, ?_, ?_⟩
  · norm_num [sum_range_succ] at hsum ⊢
    exact hsum
  · norm_num at hpi ⊢
    exact hpi

end LeibnizSieve.Leibniz
