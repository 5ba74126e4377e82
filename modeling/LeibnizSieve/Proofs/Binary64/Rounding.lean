import LeibnizSieve.Powers
import Mathlib.Data.Int.Log
import Mathlib.Data.Rat.Floor
import Mathlib.Tactic.Linarith
import Mathlib.Tactic.NormNum
import Mathlib.Tactic.Positivity
import Mathlib.Tactic.Ring

/-! Rounding of rational numbers to 53 binary places, ties to even. The last place never lies below
the exponent -1074; no exponent is too high here, so whether a rounded number has a word is a
question of its size alone. -/

namespace LeibnizSieve.Binary64

/-- The integer nearest to `x`; of two equally near ones the even one. -/
def nearestInt (x : ℚ) : ℤ :=
  if x < ⌊x⌋ + 1 / 2 then ⌊x⌋
  else if ⌊x⌋ + 1 / 2 < x then ⌊x⌋ + 1
  else if ⌊x⌋ % 2 = 0 then ⌊x⌋
  else ⌊x⌋ + 1

/-- The exponent of the last place of the numbers around `x`. -/
def lastPlace (x : ℚ) : ℤ := max (Int.log 2 |x| - 52) (-1074)

def ulp (x : ℚ) : ℚ := 2 ^ lastPlace x

/-- The number nearest to `x`; of two equally near ones the one that is even in its last place. -/
def nearest (x : ℚ) : ℚ := nearestInt (x / ulp x) * ulp x

@[simp] theorem nearestInt_intCast (n : ℤ) : nearestInt n = n := by
  simp [nearestInt]

theorem abs_nearestInt_sub_le (x : ℚ) : |(nearestInt x : ℚ) - x| ≤ 1 / 2 := by
  have hle := Int.floor_le x
  have hlt := Int.lt_floor_add_one x
  unfold nearestInt
  rw [abs_le]
  split_ifs <;> push_cast <;> constructor <;> linarith

theorem nearestInt_le {x : ℚ} {n : ℤ} (h : x ≤ n) : nearestInt x ≤ n := by
  have herr := (abs_le.1 (abs_nearestInt_sub_le x)).2
  have hlt : (nearestInt x : ℚ) < (n + 1 : ℤ) := by
    push_cast
    linarith
  exact Int.lt_add_one_iff.1 (Int.cast_lt.1 hlt)

theorem le_nearestInt {x : ℚ} {n : ℤ} (h : n ≤ x) : n ≤ nearestInt x := by
  have herr := (abs_le.1 (abs_nearestInt_sub_le x)).1
  have hlt : ((n - 1 : ℤ) : ℚ) < nearestInt x := by
    push_cast
    linarith
  exact Int.sub_one_lt_iff.1 (Int.cast_lt.1 hlt)

theorem nearestInt_of_near {x : ℚ} {n : ℤ} (hlo : n - 1 / 2 ≤ x) (hhi : x ≤ n + 1 / 2)
    (hends : n % 2 = 0 ∨ (n - 1 / 2 < x ∧ x < n + 1 / 2)) : nearestInt x = n := by
  rcases lt_or_ge x n with hlt | hge
  · have hfloor : ⌊x⌋ = n - 1 := by
      rw [Int.floor_eq_iff]
      push_cast
      constructor <;> linarith
    unfold nearestInt
    rw [hfloor]
    push_cast
    split_ifs
    · linarith
    · ring
    · rcases hends with heven | hin
      · omega
      · linarith
    · ring
  · have hfloor : ⌊x⌋ = n := by
      rw [Int.floor_eq_iff]
      constructor <;> linarith
    unfold nearestInt
    rw [hfloor]
    split_ifs
    · rfl
    · linarith
    · rfl
    · rcases hends with heven | hin
      · omega
      · linarith

theorem nearestInt_neg (x : ℚ) : nearestInt (-x) = -nearestInt x := by
  have hle := Int.floor_le x
  have hlt := Int.lt_floor_add_one x
  by_cases hx : (⌊x⌋ : ℚ) = x
  · rw [← hx, ← Int.cast_neg, nearestInt_intCast, nearestInt_intCast]
  · have hfloor : ⌊-x⌋ = -⌊x⌋ - 1 := by
      have hpos := lt_of_le_of_ne hle hx
      rw [Int.floor_eq_iff]
      push_cast
      constructor <;> linarith
    unfold nearestInt
    rw [hfloor]
    push_cast
    split_ifs <;> first | omega | linarith

@[simp] theorem lastPlace_neg (x : ℚ) : lastPlace (-x) = lastPlace x := by
  simp [lastPlace]

@[simp] theorem ulp_neg (x : ℚ) : ulp (-x) = ulp x := by
  simp [ulp]

theorem nearest_neg (x : ℚ) : nearest (-x) = -nearest x := by
  simp [nearest, neg_div, nearestInt_neg]

@[simp] theorem nearest_zero : nearest 0 = 0 := by
  simp [nearest, nearestInt]

theorem ulp_pos (x : ℚ) : 0 < ulp x := zpow_pos (by norm_num) _

theorem abs_nearest_sub_le (x : ℚ) : |nearest x - x| ≤ ulp x / 2 := by
  have hu := ulp_pos x
  have herr := abs_nearestInt_sub_le (x / ulp x)
  have hx : nearest x - x = (nearestInt (x / ulp x) - x / ulp x) * ulp x := by
    rw [sub_mul, div_mul_cancel₀ _ hu.ne', nearest]
  rw [hx, abs_mul, abs_of_pos hu]
  linarith [mul_le_mul_of_nonneg_right herr hu.le]

theorem lastPlace_of_mem {x : ℚ} {k : ℤ} (hk : -1022 ≤ k) (hlo : 2 ^ k ≤ x)
    (hhi : x < 2 ^ (k + 1)) : lastPlace x = k - 52 := by
  have hpos : 0 < x := lt_of_lt_of_le (zpow_pos (by norm_num) k) hlo
  have hlog : Int.log 2 x = k := by
    apply le_antisymm
    · have hlt : Int.log 2 x < k + 1 :=
        (Int.lt_zpow_iff_log_lt (by norm_num) hpos).1 (by exact_mod_cast hhi)
      exact Int.lt_add_one_iff.1 hlt
    · exact (Int.zpow_le_iff_le_log (by norm_num) hpos).1 (by exact_mod_cast hlo)
  rw [lastPlace, abs_of_pos hpos, hlog]
  omega

theorem lastPlace_of_places {x : ℚ} {e : ℤ} (he : -1074 ≤ e) (hpos : 0 < x)
    (hhi : x < 2 ^ (e + 53)) (hfull : 2 ^ (e + 52) ≤ x ∨ e = -1074) : lastPlace x = e := by
  rcases hfull with hlo | rfl
  · rw [lastPlace_of_mem (k := e + 52) (by omega) hlo (by rw [add_assoc]; exact hhi)]
    ring
  · have hlog : Int.log 2 x < -1074 + 53 :=
      (Int.lt_zpow_iff_log_lt (by norm_num) hpos).1 (by exact_mod_cast hhi)
    rw [lastPlace, abs_of_pos hpos]
    omega

theorem ulp_of_mem {x : ℚ} {k : ℤ} (hk : -1022 ≤ k) (hlo : 2 ^ k ≤ x) (hhi : x < 2 ^ (k + 1)) :
    ulp x = 2 ^ (k - 52) := by
  rw [ulp, lastPlace_of_mem hk hlo hhi]

theorem abs_nearest_sub_le_mul {x : ℚ} (hx : 2 ^ (-1022 : ℤ) ≤ x) :
    |nearest x - x| ≤ x * 2 ^ (-53 : ℤ) := by
  have hpos : 0 < x := lt_of_lt_of_le (zpow_pos (by norm_num) _) hx
  have hlo : (2 : ℚ) ^ Int.log 2 x ≤ x := by
    exact_mod_cast Int.zpow_log_le_self (b := 2) (by norm_num) hpos
  have hhi : x < 2 ^ (Int.log 2 x + 1) := by
    exact_mod_cast Int.lt_zpow_succ_log_self (b := 2) (by norm_num) x
  have hlog : -1022 ≤ Int.log 2 x := by
    rw [← Int.zpow_le_iff_le_log (by norm_num) hpos]
    exact_mod_cast hx
  calc |nearest x - x| ≤ ulp x / 2 := abs_nearest_sub_le x
    _ = 2 ^ Int.log 2 x * 2 ^ (-53 : ℤ) := by
      rw [ulp_of_mem hlog hlo hhi, ← zpow_add₀ (by norm_num), div_eq_mul_inv, ← zpow_neg_one,
        ← zpow_add₀ (by norm_num)]
      congr 1
      ring
    _ ≤ x * 2 ^ (-53 : ℤ) := mul_le_mul_of_nonneg_right hlo (by positivity)

theorem nearest_eq_self {k e : ℤ} (hk : |k| < 2 ^ 53) (he : -1074 ≤ e) :
    nearest (k * 2 ^ e) = k * 2 ^ e := by
  rcases eq_or_ne k 0 with rfl | hk0
  · simp
  · set x : ℚ := k * 2 ^ e with hx
    have hpow : (0 : ℚ) < 2 ^ e := zpow_pos (by norm_num) e
    have habs : |x| = |k| * 2 ^ e := by rw [hx, abs_mul, abs_of_pos hpow, Int.cast_abs]
    have hpos : 0 < |x| := by
      rw [habs]
      have : (0 : ℚ) < |k| := by exact_mod_cast abs_pos.2 hk0
      positivity
    have hlog : Int.log 2 |x| < 53 + e := by
      rw [← Int.lt_zpow_iff_log_lt (by norm_num) hpos, habs, Nat.cast_ofNat,
        zpow_add₀ (by norm_num)]
      exact mul_lt_mul_of_pos_right (by exact_mod_cast hk) hpow
    have hplace : lastPlace x ≤ e := by
      rw [lastPlace]
      omega
    have hscaled : x / ulp x = ((k * 2 ^ (e - lastPlace x).toNat : ℤ) : ℚ) := by
      have hnat : ((e - lastPlace x).toNat : ℤ) = e - lastPlace x := by omega
      rw [Int.cast_mul, Int.cast_pow, Int.cast_ofNat, ← zpow_natCast, hnat, ulp,
        zpow_sub₀ (by norm_num), hx, mul_div_assoc]
    rw [nearest, hscaled, nearestInt_intCast, ← hscaled, div_mul_cancel₀ _ (ulp_pos x).ne']

theorem nearest_natCast {n : ℕ} (hn : n < 2 ^ 53) : nearest n = n := by
  have habs : |(n : ℤ)| < 2 ^ 53 := by
    rw [Nat.abs_cast]
    exact_mod_cast hn
  have h := nearest_eq_self (e := 0) habs (by norm_num)
  simpa using h

end LeibnizSieve.Binary64
