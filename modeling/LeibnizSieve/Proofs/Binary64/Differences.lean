import LeibnizSieve.Proofs.Binary64.Denotation
import LeibnizSieve.Proofs.Binary64.Operations
import LeibnizSieve.Proofs.Binary64.Order

/-! Differences of floats. Both terms lie on the grid of the last place that words have, so rounding
never takes a difference to zero. Where neither term is more than twice the other, their difference
needs no place below the lower of the two last places, and no rounding takes place. -/

namespace LeibnizSieve.Binary64

open Decimal
open Float.Model Float.Model.UnpackedFloat

section Unpacked

variable {a b : UnpackedFloat} {x y : ℚ}

theorem apply_neg (s : Sign) (n : ℤ) : (-s).apply n = -s.apply n := by
  cases s
  · exact (Int.neg_neg n).symm
  · rfl

theorem sub_eq_add_negated (a b : UnpackedFloat) :
    UnpackedFloat.sub Format.binary64 a b = UnpackedFloat.add Format.binary64 a b.neg := by
  cases a with
  | notANumber => cases b <;> rfl
  | infinity s => cases b <;> rfl
  | zero s => cases b <;> rfl
  | finite s m e hm =>
    cases b with
    | finite t n f hn => simp only [UnpackedFloat.sub, UnpackedFloat.add, UnpackedFloat.neg,
        apply_neg, sub_eq_add_neg]
    | _ => rfl

theorem rational_neg (hc : Canonical b) (hb : (reading b).rational? = some y) :
    Canonical b.neg ∧ (reading b.neg).rational? = some (-y) := by
  obtain ⟨s, rfl, rfl⟩ | ⟨s, m, e, hm, rfl, rfl⟩ := zero_or_finite hb
  · exact ⟨trivial, by simp [UnpackedFloat.neg]⟩
  · refine ⟨hc, ?_⟩
    rw [UnpackedFloat.neg, rational_finite, apply_neg, Int.cast_neg, neg_mul]

theorem rational_sub (hca : Canonical a) (hcb : Canonical b)
    (ha : (reading a).rational? = some x) (hb : (reading b).rational? = some y) :
    Canonical (UnpackedFloat.sub Format.binary64 a b) ∧
      (reading (UnpackedFloat.sub Format.binary64 a b)).rational? = some (nearest (x - y)) := by
  obtain ⟨hcb', hb'⟩ := rational_neg hcb hb
  rw [sub_eq_add_negated, sub_eq_add_neg]
  exact rational_add hca hcb' ha hb'

theorem rational_abs (hc : Canonical a) (ha : (reading a).rational? = some x) :
    Canonical a.abs ∧ (reading a.abs).rational? = some |x| := by
  obtain ⟨s, rfl, rfl⟩ | ⟨s, m, e, hm, rfl, rfl⟩ := zero_or_finite ha
  · exact ⟨trivial, by simp [UnpackedFloat.abs]⟩
  · refine ⟨hc, ?_⟩
    have hpow : (0 : ℚ) < 2 ^ e := zpow_pos (by norm_num) e
    rw [UnpackedFloat.abs, rational_finite, abs_mul, abs_of_pos hpow]
    cases s <;> simp [Sign.apply]

end Unpacked

section Words

variable {a b : Float} {x y : ℚ}

theorem value_sub (ha : value? a = some x) (hb : value? b = some y)
    (hfit : |nearest (x - y)| < overflow) : value? (a - b) = some (nearest (x - y)) := by
  have hca := canonical_unpack ha
  have hcb := canonical_unpack hb
  rw [value_eq] at ha hb
  exact value_of_rounded (rational_sub hca hcb ha hb) hfit

theorem value_abs (ha : value? a = some x) (hfit : |x| < overflow) :
    value? a.abs = some |x| := by
  have hca := canonical_unpack ha
  rw [value_eq] at ha
  obtain ⟨hc, habs⟩ := rational_abs hca ha
  exact value_pack hc habs (by rwa [abs_abs])

end Words

/-- A number that a word can stand for: an integer of 53 places at most, at a last place that words
have. -/
def Representable (x : ℚ) : Prop :=
  ∃ k e : ℤ, x = k * 2 ^ e ∧ |k| < 2 ^ 53 ∧ -1074 ≤ e ∧ e ≤ 971

theorem representable_of_value {a : Float} {x : ℚ} (h : value? a = some x) :
    Representable x := by
  obtain ⟨negative, m, e, hreading, habs, hsign⟩ := exists_finite_of_value h
  obtain ⟨hm, he, -⟩ := fitsWord_of_ofWord hreading
  have htop : e ≤ 971 := by
    obtain ⟨-, ⟨-, -, he⟩ | ⟨-, hlt, -, he⟩⟩ := fields_of_ofWord hreading <;> omega
  have hm' : |(m : ℤ)| < 2 ^ 53 := by
    rw [Nat.abs_cast]
    exact_mod_cast hm
  rw [habs] at hsign
  cases negative with
  | false => exact ⟨m, e, hsign, hm', he, htop⟩
  | true =>
    refine ⟨-m, e, ?_, by rwa [abs_neg], he, htop⟩
    rw [hsign]
    push_cast
    rw [if_pos rfl, neg_mul]

section Grid

variable {x y : ℚ} {k l e f : ℤ}

theorem zpow_split (h : e ≤ f) : (2 : ℚ) ^ f = ((2 ^ (f - e).toNat : ℤ) : ℚ) * 2 ^ e := by
  rw [Int.cast_pow, Int.cast_ofNat, ← zpow_natCast, Int.toNat_of_nonneg (by omega),
    ← zpow_add₀ (by norm_num), sub_add_cancel]

theorem exists_sub_eq (k l e f : ℤ) :
    ∃ d : ℤ, (k * 2 ^ e - l * 2 ^ f : ℚ) = d * 2 ^ min e f := by
  refine ⟨k * 2 ^ (e - min e f).toNat - l * 2 ^ (f - min e f).toNat, ?_⟩
  rw [zpow_split (min_le_left e f), zpow_split (min_le_right e f)]
  push_cast
  ring

theorem nearest_sub_of_abs_le (hk : |k| < 2 ^ 53) (he : -1074 ≤ e) (hef : e ≤ f)
    (h : |(k * 2 ^ e - l * 2 ^ f : ℚ)| ≤ |(k * 2 ^ e : ℚ)|) :
    nearest (k * 2 ^ e - l * 2 ^ f) = k * 2 ^ e - l * 2 ^ f := by
  obtain ⟨d, hd⟩ := exists_sub_eq k l e f
  rw [min_eq_left hef] at hd
  rw [hd, abs_mul, abs_mul] at h
  have hpow : (0 : ℚ) < |2 ^ e| := abs_pos.2 (zpow_ne_zero e (by norm_num))
  have hdk : |d| ≤ |k| := by exact_mod_cast le_of_mul_le_mul_right h hpow
  rw [hd]
  exact nearest_eq_self (hdk.trans_lt hk) he

theorem nearest_sub_of_within (hx : Representable x) (hy : Representable y) (hlo : y / 2 ≤ x)
    (hhi : x ≤ 2 * y) : nearest (x - y) = x - y := by
  have hdist : |x - y| ≤ |x| ∧ |y - x| ≤ |y| := by
    rw [abs_of_nonneg (by linarith : 0 ≤ x), abs_of_nonneg (by linarith : 0 ≤ y)]
    constructor <;> rw [abs_le] <;> constructor <;> linarith
  obtain ⟨k, e, rfl, hk, he, -⟩ := hx
  obtain ⟨l, f, rfl, hl, hf, -⟩ := hy
  rcases le_total e f with hef | hfe
  · exact nearest_sub_of_abs_le hk he hef hdist.1
  · have h := nearest_sub_of_abs_le hl hf hfe hdist.2
    rw [← neg_sub, nearest_neg, h]

theorem zpow_le_abs_sub (hx : Representable x) (hy : Representable y) (h : x ≠ y) :
    2 ^ (-1074 : ℤ) ≤ |x - y| := by
  obtain ⟨k, e, rfl, -, he, -⟩ := hx
  obtain ⟨l, f, rfl, -, hf, -⟩ := hy
  obtain ⟨d, hd⟩ := exists_sub_eq k l e f
  have hpow : (0 : ℚ) < 2 ^ min e f := zpow_pos (by norm_num) _
  have hd0 : d ≠ 0 := by
    rintro rfl
    rw [Int.cast_zero, zero_mul] at hd
    exact h (sub_eq_zero.1 hd)
  calc (2 : ℚ) ^ (-1074 : ℤ) ≤ 2 ^ min e f := zpow_le_zpow_right₀ (by norm_num) (le_min he hf)
    _ ≤ |(d : ℚ)| * 2 ^ min e f :=
      le_mul_of_one_le_left hpow.le (by exact_mod_cast Int.one_le_abs hd0)
    _ = |(k * 2 ^ e - l * 2 ^ f : ℚ)| := by rw [hd, abs_mul, abs_of_pos hpow]

theorem nearest_abs_sub_eq_zero (hx : Representable x) (hy : Representable y) :
    nearest |x - y| = 0 ↔ x = y := by
  constructor
  · intro h
    by_contra hne
    have hle := nearest_mono (zpow_le_abs_sub hx hy hne)
    rw [nearest_zpow le_rfl, h] at hle
    have hpow : (0 : ℚ) < 2 ^ (-1074 : ℤ) := zpow_pos (by norm_num) _
    linarith
  · rintro rfl
    rw [sub_self, abs_zero, nearest_zero]

end Grid

section Range

variable {x y : ℚ}

def highestUlp : ℚ := 2 ^ (971 : ℤ)

def largest : ℚ := (2 ^ 53 - 1) * highestUlp

theorem eight_lt_highestUlp : 8 < highestUlp := by
  calc (8 : ℚ) = 2 ^ (3 : ℤ) := by norm_num
    _ < highestUlp := zpow_lt_zpow_right₀ (by norm_num) (by norm_num)

theorem zpow_above_highestUlp (n : ℕ) : (2 : ℚ) ^ (971 + n : ℤ) = 2 ^ n * highestUlp := by
  rw [zpow_add₀ (by norm_num), zpow_natCast, mul_comm, highestUlp]

theorem overflow_eq : overflow = 2 ^ 53 * highestUlp := zpow_above_highestUlp 53

theorem largest_lt_overflow : largest < overflow := by
  rw [overflow_eq, largest]
  linarith [eight_lt_highestUlp]

theorem Representable.abs_le (hx : Representable x) : |x| ≤ largest := by
  obtain ⟨k, e, rfl, hk, -, he⟩ := hx
  have hk' : |(k : ℚ)| ≤ 2 ^ 53 - 1 := by exact_mod_cast Int.le_sub_one_of_lt hk
  rw [abs_mul, abs_of_pos (zpow_pos (by norm_num : (0 : ℚ) < 2) e), largest]
  exact mul_le_mul hk' (zpow_le_zpow_right₀ (by norm_num) he) (by positivity) (by norm_num)

theorem nearestInt_add_of_lt_half {n : ℤ} (h0 : 0 ≤ x) (hx : x < 1 / 2) :
    nearestInt (n + x) = n :=
  nearestInt_of_near (by linarith) (by linarith) (.inr ⟨by linarith, by linarith⟩)

theorem nearest_largest_add_four : nearest (largest + 4) = largest := by
  have hunit := eight_lt_highestUlp
  have hpos : 0 < highestUlp := by linarith
  have hlo : 2 ^ (971 + (52 : ℕ) : ℤ) ≤ largest + 4 := by
    rw [zpow_above_highestUlp, largest]
    linarith
  have hhi : largest + 4 < overflow := by
    rw [overflow_eq, largest]
    linarith
  have hulp : ulp (largest + 4) = highestUlp := ulp_of_mem (by norm_num) hlo hhi
  have hscaled : (largest + 4) / highestUlp = ((2 ^ 53 - 1 : ℤ) : ℚ) + 4 / highestUlp := by
    rw [largest, add_div, mul_div_cancel_right₀ _ hpos.ne']
    norm_num
  have hsmall : 4 / highestUlp < 1 / 2 := by
    rw [div_lt_iff₀ hpos]
    linarith
  rw [nearest, hulp, hscaled, nearestInt_add_of_lt_half (by positivity) hsmall, largest]
  norm_num

theorem abs_nearest_sub_lt_overflow (hx : Representable x) (hy : |y| ≤ 4) :
    |nearest (x - y)| < overflow := by
  have hle : |x - y| ≤ largest + 4 := (abs_sub x y).trans (add_le_add hx.abs_le hy)
  rw [abs_nearest]
  exact ((nearest_mono hle).trans_eq nearest_largest_add_four).trans_lt largest_lt_overflow

end Range

end LeibnizSieve.Binary64
