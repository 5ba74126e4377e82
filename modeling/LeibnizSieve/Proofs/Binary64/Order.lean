import LeibnizSieve.Proofs.Binary64.Rounding

/-! Rounding leads to a nearest point and keeps the order of numbers. Where the last places of two
numbers differ, a power of two lies between them that both of their grids contain. -/

namespace LeibnizSieve.Binary64

section Integers

variable {x y : ℚ} {k : ℤ}

theorem one_le_add_distance {n : ℤ} (hk : k ≠ n) : 1 ≤ |k - x| + |n - x| := by
  have hgap : (1 : ℚ) ≤ |(k : ℚ) - n| := by
    exact_mod_cast Int.one_le_abs (sub_ne_zero.2 hk)
  have htriangle := abs_sub_le (k : ℚ) x n
  rw [abs_sub_comm x] at htriangle
  exact hgap.trans htriangle

theorem abs_nearestInt_sub_le_abs (x : ℚ) (k : ℤ) : |nearestInt x - x| ≤ |k - x| := by
  rcases eq_or_ne k (nearestInt x) with rfl | hk
  · exact le_rfl
  · linarith [abs_nearestInt_sub_le x, one_le_add_distance (x := x) hk]

theorem even_nearestInt (h : |nearestInt x - x| = 1 / 2) : Even (nearestInt x) := by
  have hle := Int.floor_le x
  have hlt := Int.lt_floor_add_one x
  unfold nearestInt at h ⊢
  rw [Int.even_iff]
  split_ifs at h ⊢ with hbelow habove heven
  · rw [abs_of_nonpos (by linarith)] at h
    linarith
  · rw [Int.cast_add, Int.cast_one, abs_of_pos (by linarith)] at h
    linarith
  · exact heven
  · omega

theorem even_nearestInt_of_tie (hk : k ≠ nearestInt x) (h : |k - x| = |nearestInt x - x|) :
    Even (nearestInt x) := by
  have hhalf := abs_nearestInt_sub_le x
  have hunit := one_le_add_distance (x := x) hk
  exact even_nearestInt (by linarith)

theorem nearestInt_mono (h : x ≤ y) : nearestInt x ≤ nearestInt y := by
  by_contra hgt
  have hstep : (nearestInt y : ℚ) + 1 ≤ nearestInt x := by
    exact_mod_cast Int.add_one_le_iff.2 (not_le.1 hgt)
  have hx := (abs_le.1 (abs_nearestInt_sub_le x)).2
  have hy := (abs_le.1 (abs_nearestInt_sub_le y)).1
  -- both errors take up half a unit, so that nothing is left between the two
  have heq : x = y := by linarith
  exact hgt (by rw [heq])

end Integers

section Multiples

/-- The multiple `n * step` is the one nearest to `x`, and the even one of two that are equally
near. -/
structure NearestMultiple (step x : ℚ) (n : ℤ) : Prop where
  le : ∀ k : ℤ, |n * step - x| ≤ |k * step - x|
  even : ∀ k : ℤ, k ≠ n → |k * step - x| = |n * step - x| → Even n

theorem nearestMultiple {step : ℚ} (hstep : 0 < step) (x : ℚ) :
    NearestMultiple step x (nearestInt (x / step)) := by
  have hscale (k : ℤ) : |k * step - x| = |k - x / step| * step := by
    rw [← abs_of_pos hstep, ← abs_mul, abs_of_pos hstep, sub_mul, div_mul_cancel₀ _ hstep.ne']
  constructor
  · intro k
    rw [hscale, hscale]
    exact mul_le_mul_of_nonneg_right (abs_nearestInt_sub_le_abs _ k) hstep.le
  · intro k hk h
    rw [hscale, hscale] at h
    exact even_nearestInt_of_tie hk (mul_right_cancel₀ hstep.ne' h)

end Multiples

section Grid

variable {x y : ℚ}

theorem nearest_le_mul_ulp {k : ℤ} (h : x ≤ k * ulp x) : nearest x ≤ k * ulp x := by
  have hu := ulp_pos x
  rw [nearest]
  gcongr
  exact nearestInt_le ((div_le_iff₀ hu).2 h)

theorem mul_ulp_le_nearest {k : ℤ} (h : k * ulp x ≤ x) : k * ulp x ≤ nearest x := by
  have hu := ulp_pos x
  rw [nearest]
  gcongr
  exact le_nearestInt ((le_div_iff₀ hu).2 h)

theorem exists_zpow_eq_mul_ulp {k : ℤ} (h : lastPlace x ≤ k) : ∃ n : ℤ, (2 : ℚ) ^ k = n * ulp x := by
  refine ⟨2 ^ (k - lastPlace x).toNat, ?_⟩
  rw [Int.cast_pow, Int.cast_ofNat, ← zpow_natCast, Int.toNat_of_nonneg (by omega), ulp,
    ← zpow_add₀ (by norm_num), sub_add_cancel]

theorem lastPlace_mono (hx : 0 < x) (h : x ≤ y) : lastPlace x ≤ lastPlace y := by
  rw [lastPlace, lastPlace, abs_of_pos hx, abs_of_pos (hx.trans_le h)]
  have hlog := Int.log_mono_right (b := 2) hx h
  omega

theorem exists_zpow_between (hx : 0 < x) (h : x ≤ y) (hplace : lastPlace x < lastPlace y) :
    ∃ k, x ≤ 2 ^ k ∧ 2 ^ k ≤ y ∧ lastPlace y ≤ k := by
  have hy := hx.trans_le h
  rw [lastPlace, lastPlace, abs_of_pos hx, abs_of_pos hy] at hplace
  refine ⟨Int.log 2 y, ?_, ?_, ?_⟩
  · have hlog : Int.log 2 x < Int.log 2 y := by omega
    exact_mod_cast ((Int.lt_zpow_iff_log_lt (by norm_num) hx).2 hlog).le
  · exact_mod_cast Int.zpow_log_le_self (b := 2) (by norm_num) hy
  · rw [lastPlace, abs_of_pos hy]
    omega

/-- On one grid rounding keeps order as it does for integers; from grid to grid a power of two stays
in between. -/
theorem nearest_le_of_pos (hx : 0 < x) (h : x ≤ y) : nearest x ≤ nearest y := by
  rcases eq_or_lt_of_le (lastPlace_mono hx h) with heq | hlt
  · have hu := ulp_pos x
    have hulp : ulp y = ulp x := by rw [ulp, ← heq, ulp]
    rw [nearest, nearest, hulp]
    gcongr
    exact nearestInt_mono (by gcongr)
  · obtain ⟨k, hxk, hky, hplace⟩ := exists_zpow_between hx h hlt
    obtain ⟨m, hm⟩ := exists_zpow_eq_mul_ulp (hlt.le.trans hplace)
    obtain ⟨n, hn⟩ := exists_zpow_eq_mul_ulp hplace
    calc nearest x ≤ m * ulp x := nearest_le_mul_ulp (hxk.trans_eq hm)
      _ = n * ulp y := hm.symm.trans hn
      _ ≤ nearest y := mul_ulp_le_nearest (hn.symm.trans_le hky)

theorem nearest_nonneg (h : 0 ≤ x) : 0 ≤ nearest x := by
  have hle := mul_ulp_le_nearest (x := x) (k := 0) (by simpa using h)
  simpa using hle

theorem abs_nearest (x : ℚ) : |nearest x| = nearest |x| := by
  rcases le_total 0 x with h | h
  · rw [abs_of_nonneg h, abs_of_nonneg (nearest_nonneg h)]
  · have hneg := nearest_nonneg (neg_nonneg.2 h)
    rw [nearest_neg] at hneg
    rw [abs_of_nonpos h, abs_of_nonpos (neg_nonneg.1 hneg), nearest_neg]

theorem nearest_mono : Monotone nearest := by
  intro x y h
  rcases lt_or_ge 0 x with hx | hx
  · exact nearest_le_of_pos hx h
  · rcases lt_or_ge y 0 with hy | hy
    · have hneg := nearest_le_of_pos (neg_pos.2 hy) (neg_le_neg h)
      rw [nearest_neg, nearest_neg] at hneg
      exact neg_le_neg_iff.1 hneg
    · have hneg := nearest_nonneg (neg_nonneg.2 hx)
      rw [nearest_neg] at hneg
      exact (neg_nonneg.1 hneg).trans (nearest_nonneg hy)

theorem nearest_zpow {k : ℤ} (hk : -1074 ≤ k) : nearest (2 ^ k) = 2 ^ k := by
  simpa using nearest_eq_self (k := 1) (by norm_num) hk

theorem nearest_two_pow (n : ℕ) : nearest (2 ^ n) = 2 ^ n := by
  exact_mod_cast nearest_zpow (k := n) (by omega)

theorem nearest_natCast_mul_zpow {n : ℕ} {e : ℤ} (hn : n ≤ 2 ^ 53) (he : -1074 ≤ e) :
    nearest (n * 2 ^ e) = n * 2 ^ e := by
  rcases Nat.eq_or_lt_of_le hn with rfl | hlt
  · have hpow : ((2 ^ 53 : ℕ) : ℚ) * 2 ^ e = 2 ^ (53 + e) := by
      rw [zpow_add₀ (by norm_num)]
      norm_cast
    rw [hpow, nearest_zpow (by omega)]
  · exact_mod_cast nearest_eq_self (k := n) (by rw [Nat.abs_cast]; exact_mod_cast hlt) he

end Grid

end LeibnizSieve.Binary64
