import LeibnizSieve.Proofs.Decimal.FixedPlaces
import LeibnizSieve.Proofs.Leibniz.Figures

/-! The line that shows a sum. Main statement: whatever finite number it shows, it shows the
multiple of the last place that is nearest to the exact value. -/

namespace LeibnizSieve.Leibniz

open Report Decimal Binary64

def signedUnits (negative : Bool) (units : ℕ) : ℤ := if negative then -units else units

theorem nearestMultiple_signedUnits {places units : ℕ} {negative : Bool} {v : ℚ}
    (hsign : v = if negative then -|v| else |v|)
    (hunits : (units : ℤ) = nearestInt (|v| * 10 ^ places)) :
    NearestMultiple (1 / 10 ^ places) v (signedUnits negative units) := by
  have hround : signedUnits negative units = nearestInt (v / (1 / 10 ^ places)) := by
    rw [div_div_eq_mul_div, div_one, signedUnits, hunits, hsign]
    cases negative <;> simp [nearestInt_neg]
  rw [hround]
  exact nearestMultiple (by positivity) v

theorem labelled_value (d : ReportData) :
    labelled? "Value:       " d.human = some (fixedText 15 d.value).toList := by
  rw [d.labelled_human "Value:       " (by decide) (by decide), ReportData.fields]
  simp [List.lookup_cons]

/-- A finite number is shown with a minus sign just when its sign bit is set, a whole part without
needless zeros and fifteen places. Of the numbers with that many places it is the nearest, and the
even one of two. The line of a report shows the same. -/
theorem resultLine_nearest {x : Float} {v : ℚ} (hx : value? x = some v) :
    ∃ text negative whole fraction,
      (resultLine x).toList = "Computed value of Pi: ".toList ++ text ∧
      (∀ d : ReportData, d.value = x → labelled? "Value:       " d.human = some text) ∧
      text = (if negative then ['-'] else []) ++ (whole ++ '.' :: fraction) ∧
      (negative = true ↔ 2 ^ 63 ≤ x.toBits.toNat) ∧ FixedParts 15 whole fraction ∧
      NearestMultiple (1 / 10 ^ 15) v (signedUnits negative (natural (whole ++ fraction))) := by
  obtain ⟨negative, whole, fraction, hparts, htext, hbit, hsign, hunits⟩ :=
    fixedText_parts (show 0 < 15 by norm_num) hx
  refine ⟨(fixedText 15 x).toList, negative, whole, fraction, String.toList_append, ?_, htext, hbit,
    hparts, nearestMultiple_signedUnits hsign hunits⟩
  rintro d rfl
  exact labelled_value d

theorem resultLine_nearest_tie :
    value? (Float.ofBits 0xbef0000000000000) = some (-1 / 65536) ∧
    ∃ text negative whole fraction,
      "Computed value of Pi: -0.000015258789062".toList =
        "Computed value of Pi: ".toList ++ text ∧
      text = (if negative then ['-'] else []) ++ (whole ++ '.' :: fraction) ∧ negative = true ∧
      FixedParts 15 whole fraction ∧
      NearestMultiple (1 / 10 ^ 15) (-1 / 65536)
        (signedUnits negative (natural (whole ++ fraction))) := by
  have hreading : Reading.ofFloat (Float.ofBits 0xbef0000000000000) =
      .finite true (2 ^ 52) (-68) := by decide
  have hx : value? (Float.ofBits 0xbef0000000000000) = some (-1 / 65536) := by
    norm_num [value?, hreading, Reading.rational?]
  have hline : resultLine (Float.ofBits 0xbef0000000000000) =
      "Computed value of Pi: -0.000015258789062" := by decide +kernel
  obtain ⟨text, negative, whole, fraction, htext, -, hparts, hbit, hfixed, hnearest⟩ :=
    resultLine_nearest hx
  rw [hline] at htext
  exact ⟨hx, text, negative, whole, fraction, htext, hparts, hbit.2 (by decide), hfixed, hnearest⟩

end LeibnizSieve.Leibniz
