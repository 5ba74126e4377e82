import LeibnizSieve.Proofs.Leibniz.RoundedSum

/-! Steps of the rounded sum between 2 and 4. Rounded summands still get strictly smaller, so a step
back by the next one never leads past a point of the grid that the step forth started from: the
error of the step forth is at most half a unit, and so is that of the step back. -/

namespace LeibnizSieve.Leibniz

open Binary64

section Turn

variable {a b c t t' s : ℚ}

theorem move_of_near (hs : s = 1 ∨ s = -1) (ht : unit / 2 < t)
    (hnear : |b - (a + s * t)| ≤ unit / 2) : 0 < s * (b - a) := by
  have hnear := abs_le.1 hnear
  rcases hs with rfl | rfl <;> linarith [hnear.1, hnear.2]

theorem turn_back (hs : s = 1 ∨ s = -1) (hlt : t' < t) (hforth : |b - (a + s * t)| ≤ unit / 2)
    (hback : |c - (b - s * t')| ≤ unit / 2) (ha : OnGrid a) (hc : OnGrid c) : 0 ≤ s * (c - a) := by
  have hforth := abs_le.1 hforth
  have hback := abs_le.1 hback
  -- both ends are on the grid, where less than a unit past the start is not past it
  rcases hs with rfl | rfl
  · have hle := ha.le hc (by linarith [hforth.1, hback.1])
    linarith
  · have hle := hc.le ha (by linarith [hforth.2, hback.2])
    linarith

theorem back_mem {lo hi : ℚ} (hs : s = 1 ∨ s = -1) (hpos : 0 ≤ t') (hlt : t' < t)
    (hforth : |b - (a + s * t)| ≤ unit / 2) (ha : lo ≤ a ∧ a ≤ hi) (hb : lo ≤ b ∧ b ≤ hi) :
    lo - unit / 2 ≤ b - s * t' ∧ b - s * t' ≤ hi + unit / 2 := by
  have hforth := abs_le.1 hforth
  have hu := unit_pos
  rcases hs with rfl | rfl
  · constructor <;> linarith [hforth.1, ha.1, hb.2]
  · constructor <;> linarith [hforth.2, ha.2, hb.1]

theorem between {lo hi : ℚ} (hs : s = 1 ∨ s = -1) (hac : 0 ≤ s * (c - a)) (hbc : 0 ≤ s * (b - c))
    (ha : lo ≤ a ∧ a ≤ hi) (hb : lo ≤ b ∧ b ≤ hi) : lo ≤ c ∧ c ≤ hi := by
  rcases hs with rfl | rfl
  · constructor <;> linarith [ha.1, hb.2]
  · constructor <;> linarith [ha.2, hb.1]

end Turn

/-- A step of the sum from the third term on. -/
structure Step (n : ℕ) : Prop where
  start : OnGrid (roundedSum n)
  stop : OnGrid (roundedSum (n + 1))
  near : |roundedSum (n + 1) - (roundedSum n + (-1) ^ n * magnitude n)| ≤ unit / 2
  start_mem : roundedSum 2 ≤ roundedSum n ∧ roundedSum n ≤ roundedSum 3
  stop_mem : roundedSum 2 ≤ roundedSum (n + 1) ∧ roundedSum (n + 1) ≤ roundedSum 3

theorem roundedSum_one : roundedSum 1 = 4 := by
  rw [roundedSum_succ (by norm_num), roundedSum, magnitude_zero, zero_add, nearest_coefficient]
  norm_num

theorem roundedSum_two :
    OnGrid (roundedSum 2) ∧ |roundedSum 2 - 8 / 3| ≤ unit := by
  have hmag := abs_le.1 (abs_magnitude_sub_le_of_pos (i := 1) le_rfl (by norm_num))
  have hu := unit_le
  norm_num at hmag
  have hx : roundedSum 1 + (-1) ^ 1 * magnitude 1 = 4 - magnitude 1 := by
    rw [roundedSum_one]
    ring
  obtain ⟨hgrid, hnear⟩ := nearest_mem (x := 4 - magnitude 1) (by linarith [hmag.2])
    (by linarith [hmag.1])
  rw [← hx, ← roundedSum_succ (by norm_num), hx] at hnear
  rw [← hx, ← roundedSum_succ (by norm_num)] at hgrid
  refine ⟨hgrid, ?_⟩
  have hnear := abs_le.1 hnear
  rw [abs_le]
  constructor <;> linarith [hnear.1, hnear.2, hmag.1, hmag.2]

theorem step_two : Step 2 ∧ 5 / 2 ≤ roundedSum 2 ∧ roundedSum 3 ≤ 7 / 2 := by
  obtain ⟨hgrid, hnear⟩ := roundedSum_two
  have hnear := abs_le.1 hnear
  have hmag := abs_le.1 (abs_magnitude_sub_le_of_pos (i := 2) (by norm_num) (by norm_num))
  have hu := unit_le
  norm_num at hmag
  have hx : roundedSum 2 + (-1) ^ 2 * magnitude 2 = roundedSum 2 + magnitude 2 := by ring
  obtain ⟨hgrid', hnear'⟩ := nearest_mem (x := roundedSum 2 + magnitude 2)
    (by linarith [hmag.1, hnear.1]) (by linarith [hmag.2, hnear.2])
  rw [← hx, ← roundedSum_succ (by norm_num)] at hgrid' hnear'
  have hup := abs_le.1 hnear'
  have hle : roundedSum 2 ≤ roundedSum 3 := by linarith [hup.1, hmag.1]
  refine ⟨⟨hgrid, hgrid', hnear', ⟨le_rfl, hle⟩, ⟨hle, le_rfl⟩⟩, ?_, ?_⟩
  · linarith [hnear.1]
  · linarith [hup.2, hmag.2, hnear.2]

theorem Step.move {n : ℕ} (h : Step n) (hn : n < 2 ^ 50) :
    0 < (-1) ^ n * (roundedSum (n + 1) - roundedSum n) := by
  have hpos := le_magnitude hn
  exact move_of_near (neg_one_pow_eq_or ℚ n) (by linarith [unit_pos]) h.near

/-- From the third term on each step goes between the two sums before it. -/
theorem Step.next {n : ℕ} (h : Step n) (hn : n + 1 < 2 ^ 50) :
    Step (n + 1) ∧ 0 ≤ (-1) ^ n * (roundedSum (n + 2) - roundedSum n) := by
  have hs := neg_one_pow_eq_or ℚ n
  have hs' : -(-1 : ℚ) ^ n = 1 ∨ -(-1 : ℚ) ^ n = -1 := by
    rcases hs with hs | hs <;> simp [hs]
  have hlt := magnitude_succ_lt hn
  have hpos := le_magnitude hn
  have hu := unit_pos
  have hu' := unit_le
  obtain ⟨hlo, hhi⟩ := step_two.2
  have hsucc : roundedSum (n + 2) =
      nearest (roundedSum (n + 1) - (-1) ^ n * magnitude (n + 1)) := by
    rw [roundedSum_succ hn, pow_succ]
    congr 1
    ring
  have hmem := back_mem hs (by linarith) hlt h.near h.start_mem h.stop_mem
  obtain ⟨hgrid, hnear⟩ := nearest_mem (x := roundedSum (n + 1) - (-1) ^ n * magnitude (n + 1))
    (by linarith [hmem.1]) (by linarith [hmem.2])
  rw [← hsucc] at hgrid hnear
  have hturn := turn_back hs hlt h.near hnear h.start hgrid
  have hmove : 0 < -(-1) ^ n * (roundedSum (n + 2) - roundedSum (n + 1)) :=
    move_of_near (t := magnitude (n + 1)) hs' (by linarith) (by rwa [neg_mul, ← sub_eq_add_neg])
  refine ⟨⟨h.stop, hgrid, ?_, h.stop_mem, ?_⟩, hturn⟩
  · rwa [pow_succ, mul_neg_one, neg_mul, ← sub_eq_add_neg]
  · exact between hs hturn (by linarith) h.start_mem h.stop_mem

theorem step {n : ℕ} (h2 : 2 ≤ n) (hn : n < 2 ^ 50) : Step n := by
  induction n, h2 using Nat.le_induction with
  | base => exact step_two.1
  | succ n h2 ih => exact ((ih (by omega)).next hn).1

theorem roundedSum_mem {n : ℕ} (h2 : 2 ≤ n) (hn : n ≤ 2 ^ 50) :
    roundedSum 2 ≤ roundedSum n ∧ roundedSum n ≤ roundedSum 3 := by
  rcases Nat.eq_or_lt_of_le h2 with rfl | hlt
  · exact step_two.1.start_mem
  · obtain ⟨k, rfl⟩ := Nat.exists_eq_add_of_le' (show 1 ≤ n by omega)
    exact (step (by omega) (by omega)).stop_mem

end LeibnizSieve.Leibniz
