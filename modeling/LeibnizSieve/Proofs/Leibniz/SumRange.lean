import LeibnizSieve.Proofs.Binary64.Order
import LeibnizSieve.Proofs.Leibniz.RoundedSteps

/-! The rounded sum at any count, also where neighbouring summands are the same. An even point of
the grid is a wall to a sum that goes back and forth: from where a step forth would end at the wall,
a step that is no larger does not lead past it, since rounding keeps order and ties go to the wall.
Main statement: all sums from the second on lie between two such walls. -/

namespace LeibnizSieve.Leibniz

open Binary64

section Walls

variable {k : ℤ} {a b lo hi t t' w x y : ℚ} {n : ℕ}

/-- A number between two powers of two that is even in its last place, half a unit away from the
powers at least. -/
structure EvenPoint (k : ℤ) (x : ℚ) : Prop where
  normal : -1022 ≤ k
  lower : 2 ^ k + 2 ^ (k - 53) ≤ x
  upper : x + 2 ^ (k - 53) < 2 ^ (k + 1)
  even : ∃ j : ℤ, x = 2 * j * 2 ^ (k - 52)

theorem zpow_half (k : ℤ) : (2 : ℚ) ^ (k - 52) = 2 * 2 ^ (k - 53) := by
  rw [← zpow_one_add₀ (by norm_num)]
  congr 1
  ring

theorem EvenPoint.nearest_eq (h : EvenPoint k x) (hy : |y - x| ≤ 2 ^ (k - 53)) :
    nearest y = x := by
  obtain ⟨hk, hlo, hhi, j, rfl⟩ := h
  obtain ⟨hbelow, habove⟩ := abs_le.1 hy
  have hu : (0 : ℚ) < 2 ^ (k - 52) := zpow_pos (by norm_num) _
  have hhalf := zpow_half k
  have hulp : ulp y = 2 ^ (k - 52) := ulp_of_mem hk (by linarith) (by linarith)
  have hround : nearestInt (y / 2 ^ (k - 52)) = 2 * j := by
    apply nearestInt_of_near
    · rw [le_div_iff₀ hu]
      push_cast
      linarith
    · rw [div_le_iff₀ hu]
      push_cast
      linarith
    · left
      omega
  rw [nearest, hulp, hround]
  push_cast
  rfl

theorem abs_nearest_sub_le_of_mem (hk : -1022 ≤ k) (hlo : 2 ^ k ≤ x) (hhi : x < 2 ^ (k + 1)) :
    |nearest x - x| ≤ 2 ^ (k - 53) := by
  have h := abs_nearest_sub_le x
  rw [ulp_of_mem hk hlo hhi, zpow_half] at h
  linarith

theorem EvenPoint.nearest_add_le (h : EvenPoint k b) (ht : 0 ≤ t) (hroom : 2 ^ k ≤ b - t)
    (hx : x ≤ nearest (b - t)) : nearest (x + t) ≤ b := by
  have hpos : (0 : ℚ) < 2 ^ (k - 53) := zpow_pos (by norm_num) _
  have herror := abs_nearest_sub_le_of_mem h.normal hroom (by linarith [h.upper])
  calc nearest (x + t) ≤ nearest (b + 2 ^ (k - 53)) :=
        nearest_mono (by linarith [(abs_le.1 herror).2])
    _ = b := h.nearest_eq (by rw [add_sub_cancel_left, abs_of_pos hpos])

theorem EvenPoint.le_nearest_sub (h : EvenPoint k a) (ht : 0 ≤ t) (hroom : a + t < 2 ^ (k + 1))
    (hx : nearest (a + t) ≤ x) : a ≤ nearest (x - t) := by
  have hpos : (0 : ℚ) < 2 ^ (k - 53) := zpow_pos (by norm_num) _
  have herror := abs_nearest_sub_le_of_mem h.normal (by linarith [h.lower]) hroom
  calc a = nearest (a - 2 ^ (k - 53)) :=
        (h.nearest_eq (by rw [sub_sub_cancel_left, abs_neg, abs_of_pos hpos])).symm
    _ ≤ nearest (x - t) := nearest_mono (by linarith [(abs_le.1 herror).1])

/-- Two walls with room for steps of length `w` between them. -/
structure Walls (k : ℤ) (lo hi w : ℚ) : Prop where
  lower : EvenPoint k lo
  upper : EvenPoint k hi
  lower_room : lo + w < 2 ^ (k + 1)
  upper_room : 2 ^ k ≤ hi - w

/-- Where a sum of `n` terms may be before a step of length `t`: between the walls, and away from
the one that the step goes to. -/
structure Within (lo hi t : ℚ) (n : ℕ) (x : ℚ) : Prop where
  of_even : Even n → lo ≤ x ∧ x ≤ nearest (hi - t)
  of_odd : Odd n → nearest (lo + t) ≤ x ∧ x ≤ hi

theorem Walls.step (hw : Walls k lo hi w) (ht' : 0 ≤ t') (htt : t' ≤ t) (htw : t ≤ w)
    (h : Within lo hi t n x) : Within lo hi t' (n + 1) (nearest (x + (-1) ^ n * t)) := by
  have ht : 0 ≤ t := ht'.trans htt
  rcases Nat.even_or_odd n with hn | hn
  · obtain ⟨hlo, hhi⟩ := h.of_even hn
    rw [hn.neg_one_pow, one_mul]
    refine ⟨fun hsucc => absurd hn (Nat.even_add_one.1 hsucc), fun _ => ⟨?_, ?_⟩⟩
    · exact nearest_mono (by linarith)
    · exact hw.upper.nearest_add_le ht (by linarith [hw.upper_room]) hhi
  · obtain ⟨hlo, hhi⟩ := h.of_odd hn
    rw [hn.neg_one_pow, neg_one_mul, ← sub_eq_add_neg]
    refine ⟨fun _ => ⟨?_, ?_⟩, fun hsucc => absurd hn (Nat.odd_add_one.1 hsucc)⟩
    · exact hw.lower.le_nearest_sub ht (by linarith [hw.lower_room]) hlo
    · exact nearest_mono (by linarith)

theorem Walls.mem (hw : Walls k lo hi w) (ht : 0 ≤ t) (h : Within lo hi t n x) :
    lo ≤ x ∧ x ≤ hi := by
  have hpos : (0 : ℚ) ≤ 2 ^ (k - 53) := (zpow_pos (by norm_num) _).le
  have hself : nearest lo = lo := hw.lower.nearest_eq (by rwa [sub_self, abs_zero])
  have hself' : nearest hi = hi := hw.upper.nearest_eq (by rwa [sub_self, abs_zero])
  rcases Nat.even_or_odd n with hn | hn
  · obtain ⟨hlo, hhi⟩ := h.of_even hn
    exact ⟨hlo, hhi.trans ((nearest_mono (by linarith)).trans_eq hself')⟩
  · obtain ⟨hlo, hhi⟩ := h.of_odd hn
    exact ⟨(hself.symm.trans_le (nearest_mono (by linarith))).trans hlo, hhi⟩

end Walls

def summand (i : ℕ) : ℚ := nearest (4 / nearest (2 * i + 1))

section Summand

variable {i j : ℕ}

theorem one_le_nearest_denominator (i : ℕ) : 1 ≤ nearest (2 * i + 1) := by
  have hone : nearest 1 = 1 := by exact_mod_cast nearest_natCast (n := 1) (by norm_num)
  have hi : (0 : ℚ) ≤ i := Nat.cast_nonneg i
  exact hone.symm.trans_le (nearest_mono (by linarith))

theorem summand_anti (h : i ≤ j) : summand j ≤ summand i := by
  have hpos : 0 < nearest (2 * (i : ℚ) + 1) := by linarith [one_le_nearest_denominator i]
  have hij : (i : ℚ) ≤ j := by exact_mod_cast h
  have hle : nearest (2 * (i : ℚ) + 1) ≤ nearest (2 * j + 1) := nearest_mono (by linarith)
  exact nearest_mono (by gcongr)

theorem summand_nonneg (i : ℕ) : 0 ≤ summand i := by
  have hpos := one_le_nearest_denominator i
  exact nearest_nonneg (by positivity)

theorem summand_eq_magnitude (hi : i < 2 ^ 50) : summand i = magnitude i := by
  rw [summand, nearest_denominator hi, magnitude]

theorem summand_zero : summand 0 = 4 := by
  rw [summand_eq_magnitude (by norm_num), magnitude_zero]

theorem nearest_signed_summand (n i : ℕ) :
    nearest (nearest ((-1) ^ n * 4) / nearest (2 * i + 1)) = (-1) ^ n * summand i := by
  rw [nearest_coefficient, mul_div_assoc, nearest_neg_one_pow_mul, summand]

theorem summand_le_four (i : ℕ) : summand i ≤ 4 :=
  (summand_anti i.zero_le).trans_eq summand_zero

theorem abs_signed_summand (n i : ℕ) : |(-1) ^ n * summand i| = summand i := by
  rw [abs_mul, abs_neg_one_pow, one_mul, abs_of_nonneg (summand_nonneg i)]

end Summand

def roundedSumFrom (x : ℚ) : ℕ → ℚ
  | 0 => x
  | n + 1 => nearest (roundedSumFrom x n + (-1) ^ n * summand n)

theorem roundedSumFrom_zero (n : ℕ) : roundedSumFrom 0 n = roundedSum n := by
  induction n with
  | zero => rfl
  | succ n ih => rw [roundedSumFrom, roundedSum, ih, nearest_signed_summand]

/-- Sums that come between walls stay there. -/
theorem Walls.run {k : ℤ} {lo hi x : ℚ} {m n : ℕ} (hw : Walls k lo hi (summand m))
    (h : Within lo hi (summand m) m (roundedSumFrom x m)) (hmn : m ≤ n) :
    lo ≤ roundedSumFrom x n ∧ roundedSumFrom x n ≤ hi := by
  have hwithin : Within lo hi (summand n) n (roundedSumFrom x n) := by
    induction n, hmn using Nat.le_induction with
    | base => exact h
    | succ n hmn ih =>
      exact hw.step (summand_nonneg _) (summand_anti n.le_succ) (summand_anti hmn) ih
  exact hw.mem (summand_nonneg n) hwithin

section Range

variable {x : ℚ} {n : ℕ}

theorem roundedSum_range (h2 : 2 ≤ n) : 5 / 2 ≤ roundedSum n ∧ roundedSum n ≤ 7 / 2 := by
  have hsummand := abs_le.1 (abs_magnitude_sub_le_of_pos (i := 2) (by norm_num) (by norm_num))
  rw [← summand_eq_magnitude (by norm_num)] at hsummand
  have hu := unit_le
  norm_num at hsummand
  have hw : Walls 1 (5 / 2) (7 / 2) (summand 2) := by
    refine ⟨⟨by norm_num, by norm_num, by norm_num, 5 * 2 ^ 49, by norm_num⟩,
      ⟨by norm_num, by norm_num, by norm_num, 7 * 2 ^ 49, by norm_num⟩, ?_, ?_⟩
    · norm_num
      linarith [hsummand.2]
    · norm_num
      linarith [hsummand.2]
  have hstart : Within (5 / 2) (7 / 2) (summand 2) 2 (roundedSumFrom 0 2) := by
    rw [roundedSumFrom_zero]
    refine ⟨fun _ => ⟨step_two.2.1, ?_⟩, fun hodd => absurd hodd (by decide)⟩
    have hnear := abs_le.1 (nearest_mem (x := 7 / 2 - summand 2) (by linarith [hsummand.2])
      (by linarith [hsummand.1])).2
    have hsum := abs_le.1 roundedSum_two.2
    linarith [hnear.1, hsum.2, hsummand.2]
  have h := hw.run hstart h2
  rwa [roundedSumFrom_zero] at h

theorem abs_roundedSum_le (n : ℕ) : |roundedSum n| ≤ 4 := by
  match n with
  | 0 => norm_num [roundedSum]
  | 1 => norm_num [roundedSum_one]
  | n + 2 =>
    obtain ⟨hlo, hhi⟩ := roundedSum_range (Nat.le_add_left 2 n)
    rw [abs_le]
    constructor <;> linarith

theorem roundedSumFrom_range (hlo : 5 / 2 ≤ x) (hhi : x ≤ 7 / 2) (h1 : 1 ≤ n) :
    5 ≤ roundedSumFrom x n ∧ roundedSumFrom x n ≤ 15 / 2 := by
  have hsummand := abs_le.1 (abs_magnitude_sub_le_of_pos (i := 1) le_rfl (by norm_num))
  rw [← summand_eq_magnitude (by norm_num)] at hsummand
  have hu := unit_le
  norm_num at hsummand
  have hw : Walls 2 5 (15 / 2) (summand 1) := by
    refine ⟨⟨by norm_num, by norm_num, by norm_num, 5 * 2 ^ 49, by norm_num⟩,
      ⟨by norm_num, by norm_num, by norm_num, 15 * 2 ^ 48, by norm_num⟩, ?_, ?_⟩
    · norm_num
      linarith [hsummand.2]
    · norm_num
      linarith [hsummand.2]
  have hfirst : roundedSumFrom x 1 = nearest (x + 4) := by
    rw [roundedSumFrom, roundedSumFrom, summand_zero, pow_zero, one_mul]
  have hstart : Within 5 (15 / 2) (summand 1) 1 (roundedSumFrom x 1) := by
    rw [hfirst]
    refine ⟨fun heven => absurd heven (by decide), fun _ => ⟨?_, ?_⟩⟩
    · exact nearest_mono (by linarith [hsummand.2])
    · have hself : nearest (15 / 2) = 15 / 2 := hw.upper.nearest_eq (by norm_num)
      exact (nearest_mono (by linarith)).trans_eq hself
  exact hw.run hstart h1

end Range

end LeibnizSieve.Leibniz
