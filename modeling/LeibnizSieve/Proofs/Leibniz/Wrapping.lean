import LeibnizSieve.Proofs.Leibniz.Terms
import LeibnizSieve.Proofs.Sieve.CheckedWords

/-! The words that the loop divides by. A denominator is an odd word, and from the index `2 ^ 63` on
there are none left, so the denominators start over from one. Main statement: up to that count of
terms, and no further, the denominators are those of the series, their magnitudes never grow, no
operation overflows, and the result is the sum of the series with each operation rounded. -/

namespace LeibnizSieve.Leibniz

open Binary64

open Sieve (Fault)

namespace Checked

def denominator (i : UInt64) : Except Fault UInt64 := do
  let double ← Sieve.Checked.multiply 2 i
  Sieve.Checked.add double 1

def next (s : PartialSum) (i : UInt64) : Except Fault PartialSum := do
  let d ← denominator i
  return ⟨s.sum + (if s.subtracts then -1.0 else 1.0) * 4.0 / d.toFloat, !s.subtracts⟩

def ofCount : ℕ → Except Fault PartialSum
  | 0 => .ok .start
  | n + 1 => do next (← ofCount n) (UInt64.ofNat n)

/-- The loop with every operation on words checked, up to the first fault. -/
def leibnizPi (iterations : UInt64) : Except Fault Float := do
  return (← ofCount iterations.toNat).sum

theorem denominator_eq (i : UInt64) :
    denominator i = if i.toNat < 2 ^ 63 then .ok (2 * i + 1) else .error .overflow := by
  have htwo : (2 : UInt64).toNat = 2 := rfl
  have hone : (1 : UInt64).toNat = 1 := rfl
  split_ifs with hi
  · have hdouble : (2 * i).toNat = 2 * i.toNat := by
      rw [UInt64.toNat_mul, htwo]
      omega
    rw [denominator, Sieve.Checked.multiply_ok (by rw [htwo]; omega), ok_bind,
      Sieve.Checked.add_ok (by rw [hdouble, hone]; omega)]
  · rw [denominator, Sieve.Checked.multiply, if_neg (by rw [htwo]; omega)]
    rfl

theorem next_eq (s : PartialSum) (i : UInt64) :
    next s i = if i.toNat < 2 ^ 63 then .ok (s.next i) else .error .overflow := by
  rw [next, denominator_eq]
  by_cases hi : i.toNat < 2 ^ 63
  · rw [if_pos hi, if_pos hi]
    rfl
  · rw [if_neg hi, if_neg hi]
    rfl

theorem ofCount_eq {n : ℕ} (hn : n ≤ 2 ^ 64) :
    ofCount n = if n ≤ 2 ^ 63 then .ok (PartialSum.ofCount n) else .error .overflow := by
  induction n with
  | zero => rfl
  | succ n ih =>
    have hindex : (UInt64.ofNat n).toNat = n := UInt64.toNat_ofNat_of_lt' hn
    rw [ofCount, ih (by omega)]
    split_ifs with hle hsucc hsucc
    · rw [ok_bind, next_eq, hindex, if_pos (by omega), PartialSum.ofCount_succ]
    · rw [ok_bind, next_eq, hindex, if_neg (by omega)]
    · omega
    · rfl

theorem leibnizPi_eq (n : UInt64) : leibnizPi n =
    if n.toNat ≤ 2 ^ 63 then .ok (Leibniz.leibnizPi n) else .error .overflow := by
  rw [leibnizPi, ofCount_eq n.toNat_lt.le]
  split_ifs <;> rfl

theorem leibnizPi_ok_iff (n : UInt64) :
    leibnizPi n = .ok (Leibniz.leibnizPi n) ↔ n.toNat ≤ 2 ^ 63 := by
  rw [leibnizPi_eq]
  split_ifs with hn <;> simp [hn]

theorem leibnizPi_overflow_iff (n : UInt64) :
    leibnizPi n = .error .overflow ↔ 2 ^ 63 < n.toNat := by
  rw [leibnizPi_eq, ← not_le]
  split_ifs with hn <;> simp [hn]

end Checked

def added (i : UInt64) : Float :=
  (if i % 2 = 0 then 1.0 else -1.0) * 4.0 / (2 * i + 1).toFloat

theorem sum_succ (i : UInt64) : (PartialSum.ofCount (i.toNat + 1)).sum =
    (PartialSum.ofCount i.toNat).sum + added i := by
  rw [PartialSum.ofCount_succ, UInt64.ofNat_toNat, added, sign_eq]
  rfl

theorem value_added (i : UInt64) :
    value? (added i) = some ((-1) ^ i.toNat * summand (i.toNat % 2 ^ 63)) := by
  have h := value_turn i.toNat_lt
  rwa [UInt64.ofNat_toNat, ← sign_eq] at h

section Sums

theorem value_sum_above {n : ℕ} (hn : n ≤ 2 ^ 63) :
    value? (PartialSum.ofCount (2 ^ 63 + n)).sum =
      some (roundedSumFrom (roundedSum (2 ^ 63)) n) := by
  induction n with
  | zero => exact value_ofCount le_rfl
  | succ n ih =>
    obtain ⟨hlo, hhi⟩ := roundedSum_range (n := 2 ^ 63) (by norm_num)
    -- far below the largest words, so that the sum of the next turn has one
    have hle : |roundedSumFrom (roundedSum (2 ^ 63)) n| ≤ 8 := by
      rcases Nat.eq_zero_or_pos n with rfl | hpos
      · rw [roundedSumFrom, abs_le]
        constructor <;> linarith
      · obtain ⟨hlo', hhi'⟩ := roundedSumFrom_range hlo hhi hpos
        rw [abs_le]
        constructor <;> linarith
    have heven : Even (2 ^ 63) := by decide
    have h := value_succ (by omega) hle (ih (by omega))
    rwa [Nat.add_mod_left, Nat.mod_eq_of_lt (by omega), pow_add, heven.neg_one_pow, one_mul] at h

theorem exists_value_above {n : UInt64} (hn : 2 ^ 63 < n.toNat) :
    ∃ x, value? (leibnizPi n) = some x ∧ 5 ≤ x := by
  have hlt := n.toNat_lt
  obtain ⟨j, hj⟩ := Nat.exists_eq_add_of_le hn.le
  obtain ⟨hlo, hhi⟩ := roundedSum_range (n := 2 ^ 63) (by norm_num)
  refine ⟨_, ?_, (roundedSumFrom_range hlo hhi (n := j) (by omega)).1⟩
  rw [leibnizPi, hj]
  exact value_sum_above (by omega)

theorem value_leibnizPi_iff (n : UInt64) :
    value? (leibnizPi n) = some (roundedSum n.toNat) ↔ n.toNat ≤ 2 ^ 63 := by
  constructor
  · intro h
    by_contra hgt
    obtain ⟨x, hx, hfar⟩ := exists_value_above (Nat.lt_of_not_le hgt)
    have hnear := (abs_le.1 (abs_roundedSum_le n.toNat)).2
    rw [Option.some.inj (hx.symm.trans h)] at hfar
    linarith
  · exact value_ofCount

theorem exists_five_le_value_iff (n : UInt64) :
    (∃ x, value? (leibnizPi n) = some x ∧ 5 ≤ x) ↔ 2 ^ 63 < n.toNat := by
  constructor
  · rintro ⟨x, hx, hfar⟩
    by_contra hle
    have hnear := (abs_le.1 (abs_roundedSum_le n.toNat)).2
    have hvalue := value_ofCount (Nat.le_of_not_lt hle)
    rw [Option.some.inj (hx.symm.trans hvalue)] at hfar
    linarith
  · exact exists_value_above

end Sums

section Limit

def firstWrapped : UInt64 := 9223372036854775808

theorem toNat_firstWrapped : firstWrapped.toNat = 2 ^ 63 := rfl

theorem forall_lt_iff {P : UInt64 → Prop} (hbelow : ∀ i, i.toNat < 2 ^ 63 → P i)
    (hat : ¬ P firstWrapped) (n : UInt64) : (∀ i < n, P i) ↔ n.toNat ≤ 2 ^ 63 := by
  constructor
  · intro h
    by_contra hgt
    refine hat (h firstWrapped ?_)
    rw [UInt64.lt_iff_toNat_lt, toNat_firstWrapped]
    exact Nat.lt_of_not_le hgt
  · intro hn i hi
    exact hbelow i ((UInt64.lt_iff_toNat_lt.1 hi).trans_le hn)

theorem denominator_firstWrapped : (2 * firstWrapped + 1).toNat = 1 := by decide

theorem value_firstWrapped : value? (2 * firstWrapped + 1).toFloat = some 1 := by
  have hone : nearest 1 = 1 := by exact_mod_cast nearest_natCast (n := 1) (by norm_num)
  rw [value_wrapped, toNat_firstWrapped, Nat.mod_self, Nat.cast_zero, mul_zero, zero_add, hone]

theorem le_nearest_firstWrapped : 2 ^ 64 ≤ nearest (2 * firstWrapped.toNat + 1) := by
  rw [toNat_firstWrapped]
  exact (nearest_two_pow 64).symm.trans_le (nearest_mono (by norm_num))

theorem denominators_iff (n : UInt64) :
    (∀ i < n, Checked.denominator i = .ok (2 * i + 1) ∧ (2 * i + 1).toNat = 2 * i.toNat + 1) ↔
      n.toNat ≤ 2 ^ 63 := by
  refine forall_lt_iff ?_ ?_ n
  · intro i hi
    rw [Checked.denominator_eq, if_pos hi, toNat_wrapped, Nat.mod_eq_of_lt hi]
    exact ⟨rfl, rfl⟩
  · rw [denominator_firstWrapped, toNat_firstWrapped]
    exact fun h => absurd h.2 (by norm_num)

theorem floatDenominators_iff (n : UInt64) :
    (∀ i < n, value? (2 * i + 1).toFloat = some (nearest (2 * i.toNat + 1))) ↔
      n.toNat ≤ 2 ^ 63 := by
  refine forall_lt_iff ?_ ?_ n
  · intro i hi
    rw [value_wrapped, Nat.mod_eq_of_lt hi]
  · rw [value_firstWrapped, Option.some.injEq]
    have hfar := le_nearest_firstWrapped
    intro h
    rw [← h] at hfar
    norm_num at hfar

theorem value_added_firstWrapped : value? (added firstWrapped) = some 4 := by
  have heven : Even (2 ^ 63) := by decide
  rw [value_added, toNat_firstWrapped, heven.neg_one_pow, one_mul, Nat.mod_self, summand_zero]

theorem exists_value_added_last :
    ∃ x, value? (added (firstWrapped - 1)) = some x ∧ |x| < 4 := by
  refine ⟨_, value_added _, ?_⟩
  rw [abs_signed_summand]
  have hfirst := abs_le.1 (abs_magnitude_sub_le_of_pos (i := 1) le_rfl (by norm_num))
  have hanti := summand_anti (show 1 ≤ (firstWrapped - 1).toNat % 2 ^ 63 by decide)
  rw [← summand_eq_magnitude (by norm_num)] at hfirst
  norm_num only at hfirst
  linarith [hfirst.2, unit_le]

theorem magnitudes_iff (n : UInt64) :
    (∀ i, i.toNat + 1 < n.toNat → ∃ x y, value? (added i) = some x ∧
      value? (added (i + 1)) = some y ∧ |y| ≤ |x|) ↔ n.toNat ≤ 2 ^ 63 := by
  constructor
  · intro h
    by_contra hgt
    -- the two indices on either side of the wrap
    have hlast : (firstWrapped - 1).toNat + 1 = 2 ^ 63 := by decide
    obtain ⟨x, y, hx, hy, hle⟩ := h (firstWrapped - 1) (by omega)
    obtain ⟨x', hx', hlt⟩ := exists_value_added_last
    rw [show firstWrapped - 1 + 1 = firstWrapped by decide, value_added_firstWrapped] at hy
    obtain rfl : x = x' := Option.some.inj (hx.symm.trans hx')
    rw [← Option.some.inj hy, abs_of_pos (by norm_num)] at hle
    exact absurd hlt hle.not_gt
  · intro hn i hi
    have hsucc : (i + 1).toNat = i.toNat + 1 := by
      have hone : (1 : UInt64).toNat = 1 := rfl
      rw [UInt64.toNat_add, hone]
      omega
    refine ⟨_, _, value_added i, value_added (i + 1), ?_⟩
    rw [abs_signed_summand, abs_signed_summand, hsucc, Nat.mod_eq_of_lt (by omega),
      Nat.mod_eq_of_lt (by omega)]
    exact summand_anti i.toNat.le_succ

end Limit

/-- Every turn of the loop adds a summand over the word `2 * i + 1`. Up to `2 ^ 63` terms, and for
no larger count, that word is the odd number itself, the float it is divided by is the nearest one to
that number, no summand is larger than the one before, the operations on words never overflow, and
the result is the sum of the series with each operation rounded. For larger counts the operations on
words overflow, and the sum over wrapped words is five at least. -/
theorem leibnizPi_faithful_tfae (n : UInt64) :
    (∀ i, (PartialSum.ofCount (i.toNat + 1)).sum =
      (PartialSum.ofCount i.toNat).sum + added i) ∧
    List.TFAE [
      n.toNat ≤ 2 ^ 63,
      ∀ i < n, Checked.denominator i = .ok (2 * i + 1) ∧ (2 * i + 1).toNat = 2 * i.toNat + 1,
      ∀ i < n, value? (2 * i + 1).toFloat = some (nearest (2 * i.toNat + 1)),
      ∀ i, i.toNat + 1 < n.toNat → ∃ x y, value? (added i) = some x ∧
        value? (added (i + 1)) = some y ∧ |y| ≤ |x|,
      Checked.leibnizPi n = .ok (leibnizPi n),
      value? (leibnizPi n) = some (roundedSum n.toNat)] ∧
    List.TFAE [
      2 ^ 63 < n.toNat,
      Checked.leibnizPi n = .error .overflow,
      ∃ x, value? (leibnizPi n) = some x ∧ 5 ≤ x] := by
  refine ⟨sum_succ, ?_, ?_⟩
  · tfae_have 2 ↔ 1 := denominators_iff n
    tfae_have 3 ↔ 1 := floatDenominators_iff n
    tfae_have 4 ↔ 1 := magnitudes_iff n
    tfae_have 5 ↔ 1 := Checked.leibnizPi_ok_iff n
    tfae_have 6 ↔ 1 := value_leibnizPi_iff n
    tfae_finish
  · tfae_have 2 ↔ 1 := Checked.leibnizPi_overflow_iff n
    tfae_have 3 ↔ 1 := exists_five_le_value_iff n
    tfae_finish

/-- One term more than that: the denominator is one again, as at the start, so that four is added
once more. -/
theorem leibnizPi_starts_over :
    firstWrapped < 9223372036854775809 ∧
    Checked.denominator firstWrapped = .error .overflow ∧
    (2 * firstWrapped + 1).toNat = 1 ∧
    value? (2 * firstWrapped + 1).toFloat = some 1 ∧
    2 ^ 64 ≤ nearest (2 * firstWrapped.toNat + 1) ∧
    (∃ x, value? (added (firstWrapped - 1)) = some x ∧ |x| < 4) ∧
    value? (added firstWrapped) = some 4 ∧
    Checked.leibnizPi 9223372036854775809 = .error .overflow ∧
    (∃ x, value? (leibnizPi 9223372036854775809) = some x ∧ 5 ≤ x) ∧
    roundedSum (9223372036854775809 : UInt64).toNat ≤ 7 / 2 := by
  have hcount : 2 ^ 63 < (9223372036854775809 : UInt64).toNat := by decide
  refine ⟨by decide, ?_, denominator_firstWrapped, value_firstWrapped, le_nearest_firstWrapped,
    exists_value_added_last, value_added_firstWrapped, (Checked.leibnizPi_overflow_iff _).2 hcount,
    exists_value_above hcount, (roundedSum_range (by omega)).2⟩
  rw [Checked.denominator_eq, toNat_firstWrapped, if_neg (lt_irrefl _)]

end LeibnizSieve.Leibniz
