import LeibnizSieve.Proofs.Leibniz.FloatSum

/-! The computed partial sums nest as those of the series do. -/

namespace LeibnizSieve.Leibniz

open Binary64

section Order

variable {n : ℕ}

theorem lt_succ_of_even (he : Even n) (hn : n < 2 ^ 50) : roundedSum n < roundedSum (n + 1) := by
  rcases Nat.lt_or_ge n 2 with hsmall | h2
  · obtain rfl : n = 0 := by
      obtain ⟨k, rfl⟩ := he
      omega
    rw [zero_add, roundedSum_one, roundedSum]
    norm_num
  · have h := (step h2 hn).move hn
    rw [he.neg_one_pow] at h
    linarith

theorem succ_lt_of_odd (ho : Odd n) (hn : n < 2 ^ 50) : roundedSum (n + 1) < roundedSum n := by
  rcases Nat.lt_or_ge n 2 with hsmall | h2
  · obtain rfl : n = 1 := by
      obtain ⟨k, rfl⟩ := ho
      omega
    have h := (abs_le.1 roundedSum_two.2).2
    rw [roundedSum_one]
    linarith [unit_le]
  · have h := (step h2 hn).move hn
    rw [ho.neg_one_pow] at h
    linarith

theorem le_add_two_of_even (he : Even n) (hn : n + 1 < 2 ^ 50) :
    roundedSum n ≤ roundedSum (n + 2) := by
  rcases Nat.lt_or_ge n 2 with hsmall | h2
  · obtain rfl : n = 0 := by
      obtain ⟨k, rfl⟩ := he
      omega
    have h := step_two.2.1
    have hzero : roundedSum 0 = 0 := rfl
    rw [zero_add, hzero]
    linarith
  · have h := ((step h2 (by omega)).next hn).2
    rw [he.neg_one_pow] at h
    linarith

theorem add_two_le_of_odd (ho : Odd n) (hn : n + 1 < 2 ^ 50) :
    roundedSum (n + 2) ≤ roundedSum n := by
  rcases Nat.lt_or_ge n 2 with hsmall | h2
  · obtain rfl : n = 1 := by
      obtain ⟨k, rfl⟩ := ho
      omega
    have h := step_two.2.2
    rw [roundedSum_one]
    linarith
  · have h := ((step h2 (by omega)).next hn).2
    rw [ho.neg_one_pow] at h
    linarith

theorem even_mono {k l : ℕ} (hkl : k ≤ l) (hl : 2 * l ≤ 2 ^ 50) :
    roundedSum (2 * k) ≤ roundedSum (2 * l) := by
  induction l, hkl using Nat.le_induction with
  | base => exact le_rfl
  | succ l _ ih => exact (ih (by omega)).trans (le_add_two_of_even (even_two_mul l) (by omega))

theorem odd_anti {k l : ℕ} (hkl : k ≤ l) (hl : 2 * l + 1 ≤ 2 ^ 50) :
    roundedSum (2 * l + 1) ≤ roundedSum (2 * k + 1) := by
  induction l, hkl using Nat.le_induction with
  | base => exact le_rfl
  | succ l _ ih =>
    exact (add_two_le_of_odd (odd_two_mul_add_one l) (by omega)).trans (ih (by omega))

theorem even_lt_odd {j m : ℕ} (hj : Even j) (hm : Odd m) (hj' : j ≤ 2 ^ 50) (hm' : m ≤ 2 ^ 50) :
    roundedSum j < roundedSum m := by
  obtain ⟨k, rfl⟩ := even_iff_two_dvd.1 hj
  obtain ⟨l, rfl⟩ := hm
  rcases Nat.le_total k l with hkl | hlk
  · -- the even count comes first: up to the even one just before the odd one, and a step up
    exact (even_mono hkl (by omega)).trans_lt (lt_succ_of_even (even_two_mul l) (by omega))
  · rcases Nat.eq_or_lt_of_le hlk with rfl | hlt
    · exact lt_succ_of_even (even_two_mul l) (by omega)
    · -- the odd count comes first: a step down from the odd one just before the even one
      obtain ⟨i, rfl⟩ := Nat.exists_eq_add_of_le' (show 1 ≤ k by omega)
      exact (succ_lt_of_odd (odd_two_mul_add_one i) (by omega)).trans_le
        (odd_anti (by omega) (by omega))

end Order

/-- The numbers that the computed sums stand for: those with an even count of terms grow, those with
an odd count shrink, and all of the former lie below all of the latter. -/
theorem leibnizPi_nested :
    (∀ n ≤ 2 ^ 50, value? (leibnizPi (UInt64.ofNat n)) = some (roundedSum n)) ∧
    (∀ k, 2 * k + 3 ≤ 2 ^ 50 →
      roundedSum (2 * k) ≤ roundedSum (2 * k + 2) ∧
        roundedSum (2 * k + 3) ≤ roundedSum (2 * k + 1)) ∧
    (∀ j m, Even j → Odd m → j ≤ 2 ^ 50 → m ≤ 2 ^ 50 → roundedSum j < roundedSum m) ∧
    ∀ n, 2 ≤ n → n ≤ 2 ^ 50 →
      roundedSum 2 ≤ roundedSum n ∧ roundedSum n ≤ roundedSum 3 ∧
        2 ≤ roundedSum n ∧ roundedSum n < 4 := by
  refine ⟨fun n hn => value_leibnizPi hn, ?_, fun j m => even_lt_odd, ?_⟩
  · intro k hk
    constructor
    · exact le_add_two_of_even (even_two_mul k) (by omega)
    · exact add_two_le_of_odd (odd_two_mul_add_one k) (by omega)
  · intro n h2 hn
    obtain ⟨hlo, hhi⟩ := roundedSum_mem h2 hn
    obtain ⟨-, hlo', hhi'⟩ := step_two
    refine ⟨hlo, hhi, ?_, ?_⟩ <;> linarith

end LeibnizSieve.Leibniz
