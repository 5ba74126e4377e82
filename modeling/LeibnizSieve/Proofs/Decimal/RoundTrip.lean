import LeibnizSieve.Proofs.Decimal.Notation

/-! From a float to a text and back. A decimal with a sign rounds to at most one word, for the sign,
the significand and the exponent of a finite reading fix all bits. Main statement: the number that
a layout writes rounds to the bits it was written for. -/

namespace LeibnizSieve.Decimal

open Binary64

def number? : List Char → Option ((Bool × Digits) × List Char)
  | '-' :: rest => (magnitude? rest).map fun (d, rest) => ((true, d), rest)
  | rest => (magnitude? rest).map fun (d, rest) => ((false, d), rest)

/-- The float to which a decimal is rounded, to nearest and ties to even. Its sign is kept even
when nothing else of it is. -/
def RoundsTo (negative : Bool) (magnitude : ℚ) (x : Float) : Prop :=
  ∃ m e, Reading.ofFloat x = .finite negative m e ∧ Binary64.nearest magnitude = m * 2 ^ e

section Words

variable {word word' m m' : ℕ} {e e' : ℤ} {negative : Bool}

theorem fields_of_ofWord (h : Reading.ofWord word = .finite negative m e) :
    negative = decide (word / 2 ^ 63 % 2 = 1) ∧
      (word / 2 ^ 52 % 2 ^ 11 = 0 ∧ m = word % 2 ^ 52 ∧ e = -1074 ∨
        0 < word / 2 ^ 52 % 2 ^ 11 ∧ word / 2 ^ 52 % 2 ^ 11 < 2047 ∧
          m = 2 ^ 52 + word % 2 ^ 52 ∧ e = ((word / 2 ^ 52 % 2 ^ 11 : ℕ) : ℤ) - 1075) := by
  unfold Reading.ofWord at h
  dsimp only at h
  split at h
  · split at h <;> cases h
  · split at h
    · next hzero =>
      cases h
      exact ⟨rfl, .inl ⟨hzero, rfl, rfl⟩⟩
    · cases h
      exact ⟨rfl, .inr ⟨by omega, by omega, rfl, rfl⟩⟩

theorem fitsWord_of_ofWord (h : Reading.ofWord word = .finite negative m e) : FitsWord m e := by
  obtain ⟨-, ⟨-, hm, he⟩ | ⟨hpos, -, hm, he⟩⟩ := fields_of_ofWord h
  · exact ⟨by omega, by omega, .inr he⟩
  · exact ⟨by omega, by omega, .inl (by omega)⟩

theorem word_unique (hword : word < 2 ^ 64) (hword' : word' < 2 ^ 64)
    (h : Reading.ofWord word = .finite negative m e)
    (h' : Reading.ofWord word' = .finite negative m e) : word = word' := by
  obtain ⟨hsign, hfields⟩ := fields_of_ofWord h
  obtain ⟨hsign', hfields'⟩ := fields_of_ofWord h'
  rw [hsign, decide_eq_decide] at hsign'
  omega

theorem FitsWord.lastPlace_eq (h : FitsWord m e) (hm : 0 < m) : lastPlace (m * 2 ^ e) = e := by
  obtain ⟨hlt, he, hfull⟩ := h
  have hpow : (0 : ℚ) < 2 ^ e := zpow_pos (by norm_num) e
  have hupper : (m : ℚ) * 2 ^ e < 2 ^ (e + 53) := by
    rw [zpow_add₀ (by norm_num), mul_comm]
    exact mul_lt_mul_of_pos_left (by exact_mod_cast hlt) hpow
  refine lastPlace_of_places he (mul_pos (by exact_mod_cast hm) hpow) hupper ?_
  refine hfull.imp_left fun hfull => ?_
  rw [zpow_add₀ (by norm_num), mul_comm]
  exact mul_le_mul_of_nonneg_right (by exact_mod_cast hfull) hpow.le

theorem FitsWord.exponent_of_zero (h : FitsWord 0 e) : e = -1074 :=
  h.2.2.resolve_left (by norm_num)

theorem FitsWord.unique (h : FitsWord m e) (h' : FitsWord m' e')
    (heq : (m : ℚ) * 2 ^ e = m' * 2 ^ e') : m = m' ∧ e = e' := by
  have hpow : (2 : ℚ) ^ e ≠ 0 := zpow_ne_zero e (by norm_num)
  have hpow' : (2 : ℚ) ^ e' ≠ 0 := zpow_ne_zero e' (by norm_num)
  rcases Nat.eq_zero_or_pos m with rfl | hm
  · have hzero : m' = 0 := by simpa [hpow', eq_comm] using heq
    subst hzero
    exact ⟨rfl, h.exponent_of_zero.trans h'.exponent_of_zero.symm⟩
  · rcases Nat.eq_zero_or_pos m' with rfl | hm'
    · have hzero : m = 0 := by simpa [hpow] using heq
      omega
    · have hexponent : e = e' := by rw [← h.lastPlace_eq hm, heq, h'.lastPlace_eq hm']
      subst hexponent
      exact ⟨by exact_mod_cast mul_right_cancel₀ hpow heq, rfl⟩

end Words

section Floats

variable {x y : Float} {negative : Bool} {magnitude : ℚ}

theorem ofFloat_of_toBits (h : x.toBits = y.toBits) : Reading.ofFloat x = Reading.ofFloat y := by
  rw [Reading.ofFloat, h, Reading.ofFloat]

theorem toBits_eq_of_ofFloat {m : ℕ} {e : ℤ} (hx : Reading.ofFloat x = .finite negative m e)
    (hy : Reading.ofFloat y = .finite negative m e) : x.toBits = y.toBits :=
  UInt64.toNat_inj.1 (word_unique x.toBits.toNat_lt y.toBits.toNat_lt hx hy)

theorem RoundsTo.toBits_eq (hx : RoundsTo negative magnitude x)
    (hy : RoundsTo negative magnitude y) : x.toBits = y.toBits := by
  obtain ⟨m, e, hreading, hnearest⟩ := hx
  obtain ⟨m', e', hreading', hnearest'⟩ := hy
  obtain ⟨rfl, rfl⟩ := (fitsWord_of_ofWord hreading).unique (fitsWord_of_ofWord hreading')
    (hnearest.symm.trans hnearest')
  exact toBits_eq_of_ofFloat hreading hreading'

theorem RoundsTo.congr (hx : RoundsTo negative magnitude x) (h : x.toBits = y.toBits) :
    RoundsTo negative magnitude y := by
  obtain ⟨m, e, hreading, hnearest⟩ := hx
  exact ⟨m, e, (ofFloat_of_toBits h).symm.trans hreading, hnearest⟩

end Floats

section Text

variable {l : Layout} {m : ℕ} {e : ℤ} {rest : List Char}

theorem number_minus {text : List Char} {d : Digits} (h : magnitude? text = some (d, rest)) :
    number? ('-' :: text) = some ((true, d), rest) := by
  rw [number?, h, Option.map_some]

theorem number_plain {text : List Char} {d : Digits} (h : magnitude? text = some (d, rest)) :
    number? text = some ((false, d), rest) := by
  rw [number?, h, Option.map_some]
  rintro tail rfl
  have hnone : magnitude? ('-' :: tail) = none := rfl
  rw [hnone] at h
  cases h

theorem number_readingText (hplus : l.plus = "" ∨ l.plus = "+") (negative : Bool)
    (hc : FitsWord m e) : ∃ d, (∀ rest, EndsNumber rest →
      number? ((l.readingText (.finite negative m e)).toList ++ rest) =
        some ((negative, d), rest)) ∧ Binary64.nearest d.value = m * 2 ^ e := by
  have hzero : (shortest l.tie m e).coefficient = 0 → (shortest l.tie m e).exponent = 0 := by
    intro h
    rcases Nat.eq_zero_or_pos m with rfl | hm
    · rfl
    · exact absurd h (contains_shortest l.tie hm hc).2
  obtain ⟨d, hread, hvalue⟩ := magnitude_digitsText hplus hzero
  refine ⟨d, ?_, by rw [hvalue, nearest_shortest l.tie hc]⟩
  intro rest hrest
  rw [Layout.readingText, String.toList_append]
  cases negative with
  | true => exact number_minus (hread rest hrest)
  | false => exact number_plain (hread rest hrest)

theorem number_text (hplus : l.plus = "" ∨ l.plus = "+") {x : Float}
    (hx : (Reading.ofFloat x).isFinite = true) : ∃ negative d,
      (∀ rest, EndsNumber rest →
        number? ((l.text x).toList ++ rest) = some ((negative, d), rest)) ∧
      ∀ y, RoundsTo negative d.value y ↔ y.toBits = x.toBits := by
  cases hreading : Reading.ofFloat x with
  | notANumber => simp [hreading, Reading.isFinite] at hx
  | infinite negative => simp [hreading, Reading.isFinite] at hx
  | finite negative m e =>
    obtain ⟨d, hread, hnearest⟩ :=
      number_readingText hplus negative (fitsWord_of_ofWord hreading)
    have hself : RoundsTo negative d.value x := ⟨m, e, hreading, hnearest⟩
    refine ⟨negative, d, by rwa [Layout.text, hreading], fun y => ⟨?_, ?_⟩⟩
    · intro hy
      exact hy.toBits_eq hself
    · intro h
      exact hself.congr h.symm

end Text

end LeibnizSieve.Decimal
