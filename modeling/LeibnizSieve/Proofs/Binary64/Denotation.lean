import LeibnizSieve.Proofs.Binary64.Words
import LeibnizSieve.Proofs.Decimal.RoundTrip

/-! The number that a float denotes tells the float, zero apart. -/

namespace LeibnizSieve.Binary64

open Decimal

variable {x y : Float} {v : ℚ}

theorem exists_finite_of_value (h : value? x = some v) : ∃ negative m e,
    Reading.ofFloat x = .finite negative m e ∧ |v| = m * 2 ^ e ∧
      v = if negative then -|v| else |v| := by
  rw [value?] at h
  cases hreading : Reading.ofFloat x with
  | notANumber => simp [hreading, Reading.rational?] at h
  | infinite negative => simp [hreading, Reading.rational?] at h
  | finite negative m e =>
    rw [hreading, Reading.rational?, Option.some.injEq] at h
    have hpow : (0 : ℚ) < 2 ^ e := zpow_pos (by norm_num) e
    have habs : |v| = m * 2 ^ e := by
      rw [← h, abs_mul, abs_of_pos hpow]
      cases negative <;> simp
    refine ⟨negative, m, e, rfl, habs, ?_⟩
    rw [habs, ← h]
    cases negative <;> simp

theorem eq_of_toBits (h : x.toBits = y.toBits) : x = y := by
  obtain ⟨⟨bits, hbits⟩⟩ := x
  obtain ⟨⟨bits', hbits'⟩⟩ := y
  obtain rfl : bits = bits' := h
  rfl

theorem negative_iff {negative : Bool} (hv : v ≠ 0) (h : v = if negative then -|v| else |v|) :
    negative = true ↔ v < 0 := by
  cases negative with
  | true =>
    have hneg : v = -|v| := h
    exact iff_of_true rfl (by linarith [abs_pos.2 hv])
  | false =>
    have hpos : v = |v| := h
    exact iff_of_false (by decide) (by linarith [abs_pos.2 hv])

theorem eq_of_value (hx : value? x = some v) (hy : value? y = some v) (hv : v ≠ 0) :
    x = y := by
  obtain ⟨negative, m, e, hreading, habs, hsign⟩ := exists_finite_of_value hx
  obtain ⟨negative', m', e', hreading', habs', hsign'⟩ := exists_finite_of_value hy
  obtain ⟨rfl, rfl⟩ := (fitsWord_of_ofWord hreading).unique (fitsWord_of_ofWord hreading')
    (habs.symm.trans habs')
  obtain rfl : negative = negative' :=
    Bool.eq_iff_iff.2 ((negative_iff hv hsign).trans (negative_iff hv hsign').symm)
  exact eq_of_toBits (toBits_eq_of_ofFloat hreading hreading')

end LeibnizSieve.Binary64
