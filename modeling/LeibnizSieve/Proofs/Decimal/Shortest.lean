import LeibnizSieve.Decimal.Shortest
import LeibnizSieve.Proofs.Binary64.Rounding

/-! The shortest digits round back to the number they were made for. The interval that a number
owns is where rounding leads to it, and the grid of its seventeenth digit has a point in every such
interval. -/

namespace LeibnizSieve.Decimal

open Binary64

def Digits.value (d : Digits) : ℚ := d.coefficient * 10 ^ d.exponent

theorem zpow_mul_toNat {b : ℚ} (hb : b ≠ 0) (k : ℤ) : b ^ k * b ^ (-k).toNat = b ^ k.toNat := by
  rw [← zpow_natCast, ← zpow_natCast, ← zpow_add₀ hb]
  congr 1
  omega

theorem value_mul_grid (d : Digits) (scale : ℕ) :
    d.value * scale * (10 ^ (-d.exponent).toNat : ℕ) =
      (d.coefficient * 10 ^ d.exponent.toNat * scale : ℕ) := by
  have hpow := zpow_mul_toNat (b := 10) (by norm_num) d.exponent
  push_cast
  rw [← hpow, Digits.value]
  ring

theorem le_value_mul (d : Digits) (scale n : ℕ) : (n : ℚ) ≤ d.value * scale ↔
    n * 10 ^ (-d.exponent).toNat ≤ d.coefficient * 10 ^ d.exponent.toNat * scale := by
  have hgrid : (0 : ℚ) < (10 ^ (-d.exponent).toNat : ℕ) := by positivity
  rw [← mul_le_mul_iff_left₀ hgrid, value_mul_grid]
  norm_cast

theorem value_mul_le (d : Digits) (scale n : ℕ) : d.value * scale ≤ n ↔
    d.coefficient * 10 ^ d.exponent.toNat * scale ≤ n * 10 ^ (-d.exponent).toNat := by
  have hgrid : (0 : ℚ) < (10 ^ (-d.exponent).toNat : ℕ) := by positivity
  rw [← mul_le_mul_iff_left₀ hgrid, value_mul_grid]
  norm_cast

theorem pow_length_toDigits_le {n : ℕ} (hn : 0 < n) :
    10 ^ ((Nat.toDigits 10 n).length - 1) ≤ n := by
  rcases Nat.eq_zero_or_pos ((Nat.toDigits 10 n).length - 1) with h | h
  · rw [h]
    exact hn
  · by_contra hlt
    have hle := (Nat.length_toDigits_le_iff (by norm_num) h).2 (not_le.1 hlt)
    omega

def Digits.next (d : Digits) : Digits := { d with coefficient := d.coefficient + 1 }

theorem value_next (d : Digits) : d.next.value = d.value + 10 ^ d.exponent := by
  simp only [Digits.value, Digits.next]
  push_cast
  ring

namespace Interval

variable {i : Interval} {d : Digits} {tie : TieRule} {exponent : ℤ}

theorem contains_iff (i : Interval) (d : Digits) : i.contains d = true ↔
    if i.closed then (i.low : ℚ) ≤ d.value * i.scale ∧ d.value * i.scale ≤ i.high
    else (i.low : ℚ) < d.value * i.scale ∧ d.value * i.scale < i.high := by
  unfold contains
  dsimp only
  split
  · rw [Bool.and_eq_true, decide_eq_true_eq, decide_eq_true_eq, le_value_mul, value_mul_le]
  · rw [Bool.and_eq_true, decide_eq_true_eq, decide_eq_true_eq, ← not_le, ← not_le, ← not_le,
      ← not_le, le_value_mul, value_mul_le]

theorem contains_of_lt (hlow : (i.low : ℚ) < d.value * i.scale)
    (hhigh : d.value * i.scale < i.high) : i.contains d = true := by
  rw [contains_iff]
  split
  · exact ⟨hlow.le, hhigh.le⟩
  · exact ⟨hlow, hhigh⟩

theorem mem_of_contains (h : i.contains d = true) :
    (i.low : ℚ) ≤ d.value * i.scale ∧ d.value * i.scale ≤ i.high := by
  rw [contains_iff] at h
  split at h
  · exact h
  · exact ⟨h.1.le, h.2.le⟩

theorem floorPoint_le (i : Interval) (exponent : ℤ) :
    (i.floorPoint exponent).value * i.scale ≤ i.value := by
  rw [value_mul_le]
  simp only [floorPoint]
  rw [mul_assoc, Nat.mul_comm (10 ^ _) i.scale]
  exact Nat.div_mul_le_self _ _

theorem lt_next_floorPoint (hscale : 0 < i.scale) (exponent : ℤ) :
    (i.value : ℚ) < (i.floorPoint exponent).next.value * i.scale := by
  rw [← not_le, value_mul_le, not_le]
  simp only [Digits.next, floorPoint]
  rw [mul_assoc, Nat.mul_comm (10 ^ _) i.scale]
  exact Nat.lt_mul_of_div_lt (Nat.lt_succ_self _) (by positivity)

theorem coefficient_floorPoint_ne_zero (hscale : 0 < i.scale)
    (h : (10 : ℚ) ^ exponent * i.scale ≤ i.value) : (i.floorPoint exponent).coefficient ≠ 0 := by
  intro hzero
  have hlt := lt_next_floorPoint hscale exponent
  rw [value_next, Digits.value, hzero, Nat.cast_zero, zero_mul, zero_add] at hlt
  exact absurd h (not_le.2 hlt)

theorem contains_floorPoint_or_next (hscale : 0 < i.scale) (hlow : i.low < i.value)
    (hhigh : i.value < i.high) (hstep : (10 : ℚ) ^ exponent * i.scale < i.high - i.low) :
    i.contains (i.floorPoint exponent) = true ∨
      i.contains (i.floorPoint exponent).next = true := by
  have hle := i.floorPoint_le exponent
  have hlt := lt_next_floorPoint hscale exponent
  have hnext := value_next (i.floorPoint exponent)
  have hlow : (i.low : ℚ) < i.value := by exact_mod_cast hlow
  have hhigh : (i.value : ℚ) < i.high := by exact_mod_cast hhigh
  rcases lt_or_ge (i.low : ℚ) ((i.floorPoint exponent).value * i.scale) with h | h
  · exact .inl (contains_of_lt h (hle.trans_lt hhigh))
  · refine .inr (contains_of_lt (hlow.trans hlt) ?_)
    rw [hnext, add_mul]
    change _ + 10 ^ exponent * (i.scale : ℚ) < _
    linarith

theorem pointOn_cases (tie : TieRule) (i : Interval) (exponent : ℤ) :
    let below := i.floorPoint exponent
    (i.pointOn? tie exponent = some below ∧ i.contains below = true ∧ below.coefficient ≠ 0) ∨
      (i.pointOn? tie exponent = some below.next ∧ i.contains below.next = true) ∨
      (i.pointOn? tie exponent = none ∧ i.contains below.next = false ∧
        (i.contains below = false ∨ below.coefficient = 0)) := by
  intro below
  unfold pointOn?
  dsimp only
  split
  · next hbelow habove =>
    rw [Bool.and_eq_true, decide_eq_true_eq] at hbelow
    split
    · exact .inl ⟨rfl, hbelow.symm⟩
    · exact .inr (.inl ⟨rfl, habove⟩)
    · split
      · exact .inr (.inl ⟨rfl, habove⟩)
      · split
        · exact .inl ⟨rfl, hbelow.symm⟩
        · exact .inr (.inl ⟨rfl, habove⟩)
  · next hbelow _ =>
    rw [Bool.and_eq_true, decide_eq_true_eq] at hbelow
    exact .inl ⟨rfl, hbelow.symm⟩
  · next _ habove => exact .inr (.inl ⟨rfl, habove⟩)
  · next hbelow habove =>
    rw [Bool.and_eq_false_iff, decide_eq_false_iff_not, not_not] at hbelow
    exact .inr (.inr ⟨rfl, habove, hbelow.symm⟩)

theorem contains_pointOn (h : i.pointOn? tie exponent = some d) :
    i.contains d = true ∧ d.coefficient ≠ 0 := by
  rcases i.pointOn_cases tie exponent with ⟨hpoint, hbelow⟩ | ⟨hpoint, habove⟩ | ⟨hpoint, -⟩
  · rw [hpoint, Option.some.injEq] at h
    rw [← h]
    exact hbelow
  · rw [hpoint, Option.some.injEq] at h
    rw [← h]
    exact ⟨habove, Nat.succ_ne_zero _⟩
  · rw [hpoint] at h
    cases h

theorem isSome_pointOn (tie : TieRule) (hpos : (i.floorPoint exponent).coefficient ≠ 0)
    (h : i.contains (i.floorPoint exponent) = true ∨
      i.contains (i.floorPoint exponent).next = true) :
    (i.pointOn? tie exponent).isSome = true := by
  rcases i.pointOn_cases tie exponent with ⟨hpoint, -⟩ | ⟨hpoint, -⟩ | ⟨-, habove, hbelow⟩
  · rw [hpoint]
    rfl
  · rw [hpoint]
    rfl
  · simp [habove, hpos] at h hbelow
    simp [h] at hbelow

theorem contains_firstPoint (count : ℕ) (hhit : ∃ k < count,
    (i.pointOn? tie (exponent - k)).isSome = true) :
    i.contains (i.firstPoint tie count exponent) = true ∧
      (i.firstPoint tie count exponent).coefficient ≠ 0 := by
  induction count generalizing exponent with
  | zero => simp at hhit
  | succ count ih =>
    rw [firstPoint]
    cases hpoint : i.pointOn? tie exponent with
    | some d => exact contains_pointOn hpoint
    | none =>
      apply ih
      obtain ⟨k, hk, hsome⟩ := hhit
      cases k with
      | zero => simp [hpoint] at hsome
      | succ k =>
        refine ⟨k, by omega, ?_⟩
        rw [sub_sub, add_comm 1]
        exact_mod_cast hsome

theorem zpow_topExponent_le (hscale : 0 < i.scale) (hvalue : 0 < i.value) :
    (10 : ℚ) ^ (i.topExponent - 1) * i.scale ≤ i.value := by
  unfold topExponent
  split
  · next h =>
    have hle := Nat.mul_le_of_le_div _ _ _ (pow_length_toDigits_le (Nat.div_pos h hscale))
    have hlength := Nat.length_toDigits_pos (b := 10) (n := i.value / i.scale)
    have hcast : ((Nat.toDigits 10 (i.value / i.scale)).length : ℤ) - 1 =
        ((Nat.toDigits 10 (i.value / i.scale)).length - 1 : ℕ) := by omega
    rw [hcast, zpow_natCast]
    exact_mod_cast hle
  · next h =>
    have hlt : (i.scale - 1) / i.value <
        10 ^ (Nat.toDigits 10 ((i.scale - 1) / i.value)).length :=
      (Nat.length_toDigits_le_iff (by norm_num) Nat.length_toDigits_pos).1 le_rfl
    have hmul := Nat.lt_mul_of_div_lt hlt hvalue
    rw [sub_sub_cancel_left, zpow_neg, zpow_natCast, inv_mul_le_iff₀ (by positivity)]
    have hle : i.scale ≤ 10 ^ (Nat.toDigits 10 ((i.scale - 1) / i.value)).length * i.value := by
      omega
    exact_mod_cast hle

/-- The grid of the seventeenth digit is the last one that is tried. -/
theorem contains_shortestPoint (tie : TieRule) (hscale : 0 < i.scale) (hlow : i.low < i.value)
    (hhigh : i.value < i.high) (hwidth : (i.value : ℚ) < 10 ^ 16 * (i.high - i.low)) :
    i.contains (i.firstPoint tie 18 i.topExponent) = true ∧
      (i.firstPoint tie 18 i.topExponent).coefficient ≠ 0 := by
  have htop := zpow_topExponent_le hscale (by omega)
  have hpow : (10 : ℚ) ^ (i.topExponent - 17) * 10 ^ 16 = 10 ^ (i.topExponent - 1) := by
    rw [← zpow_natCast, ← zpow_add₀ (by norm_num)]
    congr 1
    push_cast
    ring
  have hstep : (10 : ℚ) ^ (i.topExponent - 17) * i.scale < i.high - i.low := by
    rw [← hpow] at htop
    linarith
  have hle : (10 : ℚ) ^ (i.topExponent - 17) * i.scale ≤ i.value := by
    have hpos : (0 : ℚ) ≤ 10 ^ (i.topExponent - 17) * i.scale :=
      mul_nonneg (zpow_nonneg (by norm_num) _) (Nat.cast_nonneg _)
    rw [← hpow] at htop
    linarith
  exact contains_firstPoint 18 ⟨17, by norm_num,
    isSome_pointOn tie (coefficient_floorPoint_ne_zero hscale hle)
      (contains_floorPoint_or_next hscale hlow hhigh hstep)⟩

end Interval

/-- Room for the number itself: at most 53 places, the first of them filled unless the last is as
low as can be. -/
def FitsWord (significand : ℕ) (exponent : ℤ) : Prop :=
  significand < 2 ^ 53 ∧ -1074 ≤ exponent ∧ (2 ^ 52 ≤ significand ∨ exponent = -1074)

section Finite

variable {m : ℕ} {e : ℤ} {d : Digits}

/-- How far the interval of a number reaches down, in last places. -/
def gap (m : ℕ) (e : ℤ) : ℚ := if m = 2 ^ 52 ∧ e ≠ -1074 then 1 / 4 else 1 / 2

theorem scale_pos (m : ℕ) (e : ℤ) : 0 < (Interval.ofFinite m e).scale := by
  simp only [Interval.ofFinite]
  positivity

theorem zpow_mul_scale (m : ℕ) (e : ℤ) :
    (2 : ℚ) ^ e * (Interval.ofFinite m e).scale = 4 * 2 ^ (e - 2).toNat := by
  have hpow := zpow_mul_toNat (b := 2) (by norm_num) (e - 2)
  have htwo : (2 : ℚ) ^ e = 4 * 2 ^ (e - 2) := by
    rw [show (4 : ℚ) = 2 ^ (2 : ℤ) by norm_num, ← zpow_add₀ (by norm_num)]
    congr 1
    ring
  simp only [Interval.ofFinite]
  rw [htwo, ← hpow, neg_sub]
  push_cast
  ring

theorem low_ofFinite (hm : 0 < m) : ((Interval.ofFinite m e).low : ℚ) =
    (m - gap m e) * 2 ^ e * (Interval.ofFinite m e).scale := by
  rw [mul_assoc, zpow_mul_scale]
  simp only [Interval.ofFinite, gap]
  split
  · rw [Nat.cast_mul, Nat.cast_sub (by omega)]
    push_cast
    ring
  · rw [Nat.cast_mul, Nat.cast_sub (by omega)]
    push_cast
    ring

theorem value_ofFinite (m : ℕ) (e : ℤ) : ((Interval.ofFinite m e).value : ℚ) =
    m * 2 ^ e * (Interval.ofFinite m e).scale := by
  rw [mul_assoc, zpow_mul_scale]
  simp only [Interval.ofFinite]
  push_cast
  ring

theorem high_ofFinite (m : ℕ) (e : ℤ) : ((Interval.ofFinite m e).high : ℚ) =
    (m + 1 / 2) * 2 ^ e * (Interval.ofFinite m e).scale := by
  rw [mul_assoc, zpow_mul_scale]
  simp only [Interval.ofFinite]
  push_cast
  ring

theorem contains_ofFinite (hm : 0 < m) : (Interval.ofFinite m e).contains d = true ↔
    if m % 2 = 0 then (m - gap m e) * 2 ^ e ≤ d.value ∧ d.value ≤ (m + 1 / 2) * 2 ^ e
    else (m - gap m e) * 2 ^ e < d.value ∧ d.value < (m + 1 / 2) * 2 ^ e := by
  have hscale : (0 : ℚ) < (Interval.ofFinite m e).scale := by exact_mod_cast scale_pos m e
  have hclosed : (Interval.ofFinite m e).closed = decide (m % 2 = 0) := rfl
  rw [Interval.contains_iff, low_ofFinite hm, high_ofFinite, hclosed]
  simp only [mul_le_mul_iff_left₀ hscale, mul_lt_mul_iff_left₀ hscale, decide_eq_true_eq]

theorem contains_shortest (tie : TieRule) (hm : 0 < m) (hc : FitsWord m e) :
    (Interval.ofFinite m e).contains (shortest tie m e) = true ∧
      (shortest tie m e).coefficient ≠ 0 := by
  have hscale := scale_pos m e
  have hscale' : (0 : ℚ) < 2 ^ e * (Interval.ofFinite m e).scale :=
    mul_pos (zpow_pos (by norm_num) e) (by exact_mod_cast hscale)
  have hlt : (m : ℚ) < 2 ^ 53 := by exact_mod_cast hc.1
  have hlow := low_ofFinite (e := e) hm
  have hvalue := value_ofFinite m e
  have hhigh := high_ofFinite m e
  rw [shortest, if_neg hm.ne']
  rw [mul_assoc] at hlow hvalue hhigh
  have hwidth : (m : ℚ) < 10 ^ 16 * (1 / 2 + gap m e) := by
    unfold gap
    split
    · next h =>
      rw [h.1]
      norm_num
    · linarith
  have hgap : 0 < gap m e := by
    unfold gap
    split <;> norm_num
  apply Interval.contains_shortestPoint tie hscale
  · have : ((Interval.ofFinite m e).low : ℚ) < (Interval.ofFinite m e).value := by
      rw [hlow, hvalue]
      exact mul_lt_mul_of_pos_right (by linarith) hscale'
    exact_mod_cast this
  · have : ((Interval.ofFinite m e).value : ℚ) < (Interval.ofFinite m e).high := by
      rw [hhigh, hvalue]
      exact mul_lt_mul_of_pos_right (by linarith) hscale'
    exact_mod_cast this
  · have hdiff : 1 / 2 + gap m e = m + 1 / 2 - (m - gap m e) := by ring
    rw [hlow, hvalue, hhigh, ← sub_mul, ← mul_assoc (10 ^ 16), ← hdiff]
    exact mul_lt_mul_of_pos_right hwidth hscale'

theorem mem_of_contains (hm : 0 < m) (h : (Interval.ofFinite m e).contains d = true) :
    (m - gap m e) * 2 ^ e ≤ d.value ∧ d.value ≤ (m + 1 / 2) * 2 ^ e ∧
      (m % 2 = 0 ∨ (m - gap m e) * 2 ^ e < d.value ∧ d.value < (m + 1 / 2) * 2 ^ e) := by
  rw [contains_ofFinite hm] at h
  split at h
  · next heven => exact ⟨h.1, h.2, .inl heven⟩
  · exact ⟨h.1.le, h.2.le, .inr h⟩

theorem nearest_of_place {x : ℚ} {n : ℤ} (hplace : lastPlace x = e)
    (hlo : (n - 1 / 2) * 2 ^ e ≤ x) (hhi : x ≤ (n + 1 / 2) * 2 ^ e)
    (hends : n % 2 = 0 ∨ ((n - 1 / 2) * 2 ^ e < x ∧ x < (n + 1 / 2) * 2 ^ e)) :
    Binary64.nearest x = n * 2 ^ e := by
  have hpow : (0 : ℚ) < 2 ^ e := zpow_pos (by norm_num) e
  rw [Binary64.nearest, ulp, hplace, nearestInt_of_near (n := n)]
  · rwa [le_div_iff₀ hpow]
  · rwa [div_le_iff₀ hpow]
  · rwa [lt_div_iff₀ hpow, div_lt_iff₀ hpow]

theorem gap_le (m : ℕ) (e : ℤ) : gap m e ≤ 1 / 2 := by
  unfold gap
  split <;> norm_num

theorem nearest_of_contains_of_place (hm : 0 < m) (hplace : lastPlace d.value = e)
    (h : (Interval.ofFinite m e).contains d = true) : Binary64.nearest d.value = m * 2 ^ e := by
  obtain ⟨hlo, hhi, hends⟩ := mem_of_contains hm h
  have hpow : (0 : ℚ) < 2 ^ e := zpow_pos (by norm_num) e
  have hbelow : (m - 1 / 2) * 2 ^ e ≤ (m - gap m e) * 2 ^ e :=
    mul_le_mul_of_nonneg_right (by linarith [gap_le m e]) hpow.le
  have hround := nearest_of_place (x := d.value) (n := m) hplace
  rw [Int.cast_natCast] at hround
  refine hround (hbelow.trans hlo) hhi ?_
  rcases hends with heven | hin
  · exact .inl (by exact_mod_cast heven)
  · exact .inr ⟨hbelow.trans_lt hin.1, hin.2⟩

/-- Below a power of two the places are half as wide. -/
theorem nearest_of_contains_power (he : -1074 < e) (hbelow : d.value < 2 ^ (e + 52))
    (h : (Interval.ofFinite (2 ^ 52) e).contains d = true) :
    Binary64.nearest d.value = (2 ^ 52 : ℕ) * 2 ^ e := by
  have hlo := (mem_of_contains (by norm_num) h).1
  have hpow : (0 : ℚ) < 2 ^ (e - 1) := zpow_pos (by norm_num) _
  have htwo : (2 : ℚ) ^ e = 2 * 2 ^ (e - 1) := by
    rw [← zpow_one_add₀ (by norm_num), add_sub_cancel]
  have hplaces (k : ℤ) : (2 : ℚ) ^ (e - 1 + k) = 2 ^ k * 2 ^ (e - 1) := by
    rw [zpow_add₀ (by norm_num), mul_comm]
  rw [gap, if_pos ⟨rfl, he.ne'⟩, htwo] at hlo
  rw [show e + 52 = e - 1 + 53 by ring] at hbelow
  have hplace : lastPlace d.value = e - 1 := by
    refine lastPlace_of_places (by omega) ?_ hbelow (.inl ?_)
    · refine lt_of_lt_of_le ?_ hlo
      push_cast
      linarith
    · rw [hplaces]
      push_cast at hlo
      norm_num at hlo ⊢
      linarith
  rw [hplaces] at hbelow
  push_cast at hlo
  norm_num at hbelow
  rw [nearest_of_place (n := 2 ^ 53) hplace, htwo]
  · push_cast
    ring
  · push_cast
    linarith
  · push_cast
    linarith
  · exact .inl (by norm_num)

theorem eq_power_of_value_lt (hm : 0 < m) (hfull : 2 ^ 52 ≤ m)
    (h : (Interval.ofFinite m e).contains d = true) (hsmall : d.value < 2 ^ (e + 52)) :
    m = 2 ^ 52 := by
  have hpow : (0 : ℚ) < 2 ^ e := zpow_pos (by norm_num) e
  rw [zpow_add₀ (by norm_num), mul_comm] at hsmall
  have hmul := lt_of_mul_lt_mul_right ((mem_of_contains hm h).1.trans_lt hsmall) hpow.le
  -- from any larger mantissa the interval reaches half a unit down, not below the power
  by_contra hne
  have hgt : ((2 ^ 52 : ℕ) : ℚ) + 1 ≤ m := by exact_mod_cast lt_of_le_of_ne hfull (Ne.symm hne)
  have hgap := gap_le m e
  push_cast at hgt
  norm_num at hmul
  linarith

/-- Every decimal in the interval of a number rounds to it. -/
theorem nearest_of_contains (hm : 0 < m) (hc : FitsWord m e)
    (h : (Interval.ofFinite m e).contains d = true) : Binary64.nearest d.value = m * 2 ^ e := by
  obtain ⟨hlo, hhi, -⟩ := mem_of_contains hm h
  obtain ⟨hlt, he, hfull⟩ := hc
  have hpow : (0 : ℚ) < 2 ^ e := zpow_pos (by norm_num) e
  have hm1 : (1 : ℚ) ≤ m := by exact_mod_cast hm
  have hmlt : (m : ℚ) + 1 ≤ 2 ^ 53 := by exact_mod_cast hlt
  have hpos : 0 < d.value :=
    lt_of_lt_of_le (mul_pos (by linarith [gap_le m e]) hpow) hlo
  have hupper : d.value < 2 ^ (e + 53) := by
    rw [zpow_add₀ (by norm_num), mul_comm]
    exact hhi.trans_lt (mul_lt_mul_of_pos_right (by norm_num at hmlt ⊢; linarith) hpow)
  by_cases hplace : 2 ^ (e + 52) ≤ d.value ∨ e = -1074
  · exact nearest_of_contains_of_place hm (lastPlace_of_places he hpos hupper hplace) h
  · rw [not_or, not_le] at hplace
    obtain ⟨hsmall, hne⟩ := hplace
    obtain rfl := eq_power_of_value_lt hm (hfull.resolve_right hne) h hsmall
    exact nearest_of_contains_power (lt_of_le_of_ne he (Ne.symm hne)) hsmall h

theorem nearest_shortest (tie : TieRule) (hc : FitsWord m e) :
    Binary64.nearest (shortest tie m e).value = m * 2 ^ e := by
  rcases Nat.eq_zero_or_pos m with rfl | hm
  · simp [shortest_zero, Digits.value]
  · exact nearest_of_contains hm hc (contains_shortest tie hm hc).1

end Finite

end LeibnizSieve.Decimal
