import LeibnizSieve.Leibniz.Report
import LeibnizSieve.Proofs.Binary64.Differences
import LeibnizSieve.Proofs.Leibniz.FloatSum

/-! The error that a report states. Main statement: it is the distance from the constant, rounded
once, and so nothing for the constant alone; near the constant, where all sums of the series lie, it
is not rounded at all. -/

namespace LeibnizSieve.Leibniz

open Binary64 Report

open Decimal (Reading)

def piValue : ℚ := 7074237752028440 * 2 ^ (-51 : ℤ)

theorem value_pi : value? pi = some piValue := by
  have h : Reading.ofFloat pi = .finite false 7074237752028440 (-51) := by decide
  rw [value?, h]
  norm_num [Reading.rational?, piValue]

theorem piValue_mem : 3 < piValue ∧ piValue < 22 / 7 := by
  constructor <;> norm_num [piValue]

namespace ReportData

variable (d : ReportData) {v : ℚ}

theorem value_absError (hv : value? d.value = some v) :
    value? d.absError = some (nearest |v - piValue|) := by
  obtain ⟨hlo, hhi⟩ := piValue_mem
  have hfit : |nearest (v - piValue)| < overflow := by
    apply abs_nearest_sub_lt_overflow (representable_of_value hv)
    rw [abs_of_pos (by linarith)]
    linarith
  rw [absError, ← abs_nearest]
  exact value_abs (value_sub hv value_pi hfit) hfit

theorem nearest_distance (hv : value? d.value = some v) (hlo : piValue / 2 ≤ v)
    (hhi : v ≤ 2 * piValue) : nearest |v - piValue| = |v - piValue| := by
  rw [← abs_nearest, nearest_sub_of_within (representable_of_value hv)
    (representable_of_value value_pi) hlo hhi]

end ReportData

theorem eq_piValue_iff {x : Float} {v : ℚ} (hx : value? x = some v) : v = piValue ↔ x = pi := by
  constructor
  · rintro rfl
    exact eq_of_value hx value_pi (by linarith [piValue_mem.1])
  · rintro rfl
    exact Option.some.inj (hx.symm.trans value_pi)

theorem roundedSum_within {n : ℕ} (h1 : 1 ≤ n) :
    piValue / 2 ≤ roundedSum n ∧ roundedSum n ≤ 2 * piValue := by
  obtain ⟨hlo, hhi⟩ := piValue_mem
  rcases Nat.eq_or_lt_of_le h1 with rfl | h2
  · rw [roundedSum_one]
    constructor <;> linarith
  · obtain ⟨hge, hle⟩ := roundedSum_range h2
    constructor <;> linarith

/-- The error of a finite value is its distance from the constant, rounded to nearest. It is never
negative, it is zero for the constant alone, and from half the constant to twice the constant it is
the distance itself. In particular it is that for every sum of the series. -/
theorem absError_distance (d : ReportData) :
    (∀ v, value? d.value = some v → ∃ e, value? d.absError = some e ∧
      e = nearest |v - piValue| ∧ 0 ≤ e ∧ (e = 0 ↔ v = piValue) ∧ (e = 0 ↔ d.value = pi) ∧
      (piValue / 2 ≤ v → v ≤ 2 * piValue → e = |v - piValue|)) ∧
    ∀ n, 1 ≤ n → n ≤ 2 ^ 50 → d.value = leibnizPi (UInt64.ofNat n) →
      ∃ x, value? d.value = some x ∧ value? d.absError = some |x - piValue| := by
  constructor
  · intro v hv
    have hzero := nearest_abs_sub_eq_zero (representable_of_value hv)
      (representable_of_value value_pi)
    refine ⟨_, d.value_absError hv, rfl, nearest_nonneg (abs_nonneg _), hzero,
      hzero.trans (eq_piValue_iff hv), d.nearest_distance hv⟩
  · intro n h1 hn hsum
    have hv : value? d.value = some (roundedSum n) := by rw [hsum, value_leibnizPi hn]
    obtain ⟨hlo, hhi⟩ := roundedSum_within h1
    refine ⟨_, hv, ?_⟩
    rw [d.value_absError hv, d.nearest_distance hv hlo hhi]

/-- The float above the constant is a unit of the last place away from it. The sum of one term is
almost as far from it as a sum can be. -/
theorem absError_distance_next :
    value? (Float.ofBits 0x400921fb54442d19) = some (7074237752028441 * 2 ^ (-51 : ℤ)) ∧
    (∀ elapsed, value? (ReportData.mk 1 (Float.ofBits 0x400921fb54442d19) elapsed).absError =
      some (2 ^ (-51 : ℤ))) ∧
    ∀ elapsed, ∃ x, value? (leibnizPi 1) = some x ∧
      value? (ReportData.mk 1 (leibnizPi 1) elapsed).absError = some |x - piValue| := by
  have hreading : Reading.ofFloat (Float.ofBits 0x400921fb54442d19) =
      .finite false 7074237752028441 (-51) := by decide
  have hv : value? (Float.ofBits 0x400921fb54442d19) =
      some (7074237752028441 * 2 ^ (-51 : ℤ)) := by
    rw [value?, hreading]
    norm_num [Reading.rational?]
  refine ⟨hv, ?_, ?_⟩
  · intro elapsed
    obtain ⟨e, herror, -, -, -, -, hexact⟩ :=
      (absError_distance ⟨1, Float.ofBits 0x400921fb54442d19, elapsed⟩).1 _ hv
    rw [herror, hexact (by norm_num [piValue]) (by norm_num [piValue])]
    norm_num [piValue]
  · intro elapsed
    exact (absError_distance ⟨1, leibnizPi 1, elapsed⟩).2 1 le_rfl (by norm_num) rfl

end LeibnizSieve.Leibniz
