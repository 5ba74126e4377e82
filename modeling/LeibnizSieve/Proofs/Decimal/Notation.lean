import LeibnizSieve.Decimal.Layout
import LeibnizSieve.Proofs.Decimal.Shortest

/-! Reading decimals: a whole number without needless zeros, then perhaps a point with digits and
perhaps an exponent. Main statement: whatever the layout, the number that was written down is the
one that is read. -/

namespace LeibnizSieve.Decimal

def digits? (text : List Char) : Option (List Char × List Char) :=
  let digits := text.takeWhile Char.isDigit
  if digits = [] then none else some (digits, text.dropWhile Char.isDigit)

def natural (digits : List Char) : ℕ := Nat.ofDigitChars 10 digits 0

def whole? (text : List Char) : Option (List Char × List Char) :=
  match digits? text with
  | some ('0' :: _ :: _, _) => none
  | read => read

def fraction? : List Char → Option (List Char × List Char)
  | '.' :: rest => digits? rest
  | rest => some ([], rest)

def signed? : List Char → Option (ℤ × List Char)
  | '-' :: rest => (digits? rest).map fun (ds, rest) => (-natural ds, rest)
  | '+' :: rest => (digits? rest).map fun (ds, rest) => (↑(natural ds), rest)
  | rest => (digits? rest).map fun (ds, rest) => (↑(natural ds), rest)

def exponent? : List Char → Option (ℤ × List Char)
  | 'e' :: rest | 'E' :: rest => signed? rest
  | rest => some (0, rest)

def magnitude? (text : List Char) : Option (Digits × List Char) := do
  let (whole, rest) ← whole? text
  let (fraction, rest) ← fraction? rest
  let (exponent, rest) ← exponent? rest
  return (⟨natural (whole ++ fraction), exponent - fraction.length⟩, rest)

def IsDigits (digits : List Char) : Prop := digits ≠ [] ∧ ∀ c ∈ digits, c.isDigit = true

def EndsDigits (rest : List Char) : Prop := ∀ c ∈ rest.head?, c.isDigit = false

/-- What follows a number without going on with it. -/
def EndsNumber (rest : List Char) : Prop :=
  ∀ c ∈ rest.head?, c.isDigit = false ∧ c ≠ '.' ∧ c ≠ 'e' ∧ c ≠ 'E'

section Reading

variable {digits whole fraction rest : List Char}

theorem EndsNumber.endsDigits (h : EndsNumber rest) : EndsDigits rest := fun c hc => (h c hc).1

theorem endsDigits_cons {c : Char} (h : c.isDigit = false) : EndsDigits (c :: rest) := by
  simpa [EndsDigits] using h

theorem digits_append (hd : IsDigits digits) (hrest : EndsDigits rest) :
    digits? (digits ++ rest) = some (digits, rest) := by
  have htake : rest.takeWhile Char.isDigit = [] := by
    cases rest with
    | nil => rfl
    | cons c rest => simp [hrest c rfl]
  have hdrop : rest.dropWhile Char.isDigit = rest := by
    cases rest with
    | nil => rfl
    | cons c rest => simp [hrest c rfl]
  rw [digits?, List.takeWhile_append_of_pos hd.2, List.dropWhile_append_of_pos hd.2, htake, hdrop,
    List.append_nil, if_neg hd.1]

theorem IsDigits.append_ne_cons (hd : IsDigits digits) {c : Char} (hc : c.isDigit = false)
    (tail : List Char) : digits ++ rest ≠ c :: tail := by
  obtain ⟨d, ds, rfl⟩ := List.exists_cons_of_ne_nil hd.1
  intro h
  rw [List.cons_append, List.cons.injEq] at h
  have hdigit := hd.2 d List.mem_cons_self
  rw [h.1, hc] at hdigit
  cases hdigit

theorem whole_append (hd : IsDigits whole) (hzero : whole.head? = some '0' → whole = ['0'])
    (hrest : EndsDigits rest) : whole? (whole ++ rest) = some (whole, rest) := by
  rw [whole?, digits_append hd hrest]
  split
  · next h =>
    rw [Option.some.injEq, Prod.mk.injEq] at h
    rw [h.1] at hzero
    exact absurd (hzero rfl) (by simp)
  · rfl

theorem fraction_point (hd : IsDigits fraction) (hrest : EndsDigits rest) :
    fraction? ('.' :: (fraction ++ rest)) = some (fraction, rest) := by
  rw [fraction?, digits_append hd hrest]

theorem fraction_none (h : ∀ c ∈ rest.head?, c ≠ '.') : fraction? rest = some ([], rest) := by
  rw [fraction?]
  rintro tail rfl
  exact h '.' rfl rfl

theorem exponent_none (h : ∀ c ∈ rest.head?, c ≠ 'e' ∧ c ≠ 'E') :
    exponent? rest = some (0, rest) := by
  rw [exponent?]
  · rintro tail rfl
    exact (h 'e' rfl).1 rfl
  · rintro tail rfl
    exact (h 'E' rfl).2 rfl

theorem magnitude_of_parts {text rest' rest'' : List Char} {k : ℤ}
    (hw : whole? text = some (whole, rest'')) (hf : fraction? rest'' = some (fraction, rest'))
    (he : exponent? rest' = some (k, rest)) :
    magnitude? text = some (⟨natural (whole ++ fraction), k - fraction.length⟩, rest) := by
  simp [magnitude?, hw, hf, he]

end Reading

section Digits

theorem isDigits_toDigits (n : ℕ) : IsDigits (Nat.toDigits 10 n) :=
  ⟨Nat.toDigits_ne_nil, fun _ => Nat.isDigit_of_mem_toDigits (by norm_num) (by norm_num)⟩

theorem isDigits_zero : IsDigits ['0'] := ⟨by simp, by simp⟩

theorem natural_toDigits (n : ℕ) : natural (Nat.toDigits 10 n) = n :=
  Nat.ofDigitChars_ten_toDigits

theorem natural_append (front back : List Char) :
    natural (front ++ back) = natural front * 10 ^ back.length + natural back := by
  rw [natural, Nat.ofDigitChars_append, Nat.ofDigitChars_eq_ofDigitChars_zero, mul_comm]
  rfl

theorem eq_zero_of_head {n : ℕ} (h : (Nat.toDigits 10 n).head? = some '0') : n = 0 := by
  induction n using Nat.strongRecOn with
  | ind n ih =>
    rcases Nat.lt_or_ge n 10 with hlt | hge
    · rw [Nat.toDigits_of_lt_base hlt] at h
      clear ih
      revert h
      revert hlt
      revert n
      decide
    · rw [Nat.toDigits_of_base_le (by norm_num) hge,
        List.head?_append_of_ne_nil _ Nat.toDigits_ne_nil] at h
      have hzero := ih (n / 10) (by omega) h
      omega

theorem isDigit_of_mem_zeros {zeros : ℕ} {c : Char} (h : c ∈ List.replicate zeros '0') :
    c.isDigit = true := by
  rw [List.eq_of_mem_replicate h]
  rfl

theorem isDigits_zeros_append (zeros : ℕ) {digits : List Char} (hd : IsDigits digits) :
    IsDigits (List.replicate zeros '0' ++ digits) :=
  ⟨by simp [hd.1], List.forall_mem_append.2 ⟨fun _ => isDigit_of_mem_zeros, hd.2⟩⟩

theorem isDigits_append_zeros {digits : List Char} (hd : IsDigits digits) (zeros : ℕ) :
    IsDigits (digits ++ List.replicate zeros '0') :=
  ⟨by simp [hd.1], List.forall_mem_append.2 ⟨hd.2, fun _ => isDigit_of_mem_zeros⟩⟩

theorem natural_zeros_append (zeros : ℕ) (digits : List Char) :
    natural (List.replicate zeros '0' ++ digits) = natural digits := by
  rw [natural, Nat.ofDigitChars_append, Nat.ofDigitChars_replicate_zero, Nat.mul_zero, natural]

theorem natural_append_zeros (digits : List Char) (zeros : ℕ) :
    natural (digits ++ List.replicate zeros '0') = natural digits * 10 ^ zeros := by
  rw [natural, Nat.ofDigitChars_append, Nat.ofDigitChars_replicate_zero, Nat.mul_comm, natural]

end Digits

section Layouts

variable {digits rest : List Char} {whole : ℤ}

theorem magnitude_point {front fraction : List Char} (hfront : IsDigits front)
    (hzero : front.head? = some '0' → front = ['0']) (hfraction : IsDigits fraction)
    (hrest : EndsNumber rest) : magnitude? (front ++ '.' :: (fraction ++ rest)) =
      some (⟨natural (front ++ fraction), -fraction.length⟩, rest) := by
  have hpoint : EndsDigits ('.' :: (fraction ++ rest)) := endsDigits_cons rfl
  have hwhole := whole_append hfront hzero hpoint
  have hexponent := exponent_none fun c hc => (hrest c hc).2.2
  rw [magnitude_of_parts hwhole (fraction_point hfraction hrest.endsDigits) hexponent, zero_sub]

theorem magnitude_whole {front : List Char} (hfront : IsDigits front)
    (hzero : front.head? = some '0' → front = ['0']) (hrest : EndsNumber rest) :
    magnitude? (front ++ rest) = some (⟨natural front, 0⟩, rest) := by
  have hwhole := whole_append hfront hzero hrest.endsDigits
  have hfraction := fraction_none fun c hc => (hrest c hc).2.1
  have hexponent := exponent_none fun c hc => (hrest c hc).2.2
  rw [magnitude_of_parts hwhole hfraction hexponent, List.append_nil]
  rfl

theorem magnitude_below (pointZero : Bool) (hd : IsDigits digits) (hwhole : whole ≤ 0)
    (hrest : EndsNumber rest) :
    magnitude? ((positionalText pointZero digits whole).toList ++ rest) =
      some (⟨natural digits, whole - digits.length⟩, rest) := by
  have hread := magnitude_point isDigits_zero (by simp)
    (isDigits_zeros_append (-whole).toNat hd) hrest
  have hnatural : natural (['0'] ++ (List.replicate (-whole).toNat '0' ++ digits)) =
      natural digits := natural_zeros_append ((-whole).toNat + 1) digits
  have hlength : -((List.replicate (-whole).toNat '0' ++ digits).length : ℤ) =
      whole - digits.length := by
    simp
    omega
  rw [hnatural, hlength] at hread
  rw [positionalText, if_pos hwhole, ← hread]
  simp

theorem magnitude_between (pointZero : Bool) (hd : IsDigits digits)
    (hhead : digits.head? ≠ some '0') (hwhole : 0 < whole) (hlt : whole.toNat < digits.length)
    (hrest : EndsNumber rest) :
    magnitude? ((positionalText pointZero digits whole).toList ++ rest) =
      some (⟨natural digits, whole - digits.length⟩, rest) := by
  have hfront : IsDigits (digits.take whole.toNat) :=
    ⟨by simp [hd.1]; omega, fun c hc => hd.2 c (List.mem_of_mem_take hc)⟩
  have hfraction : IsDigits (digits.drop whole.toNat) :=
    ⟨by simp; omega, fun c hc => hd.2 c (List.mem_of_mem_drop hc)⟩
  have hzero : (digits.take whole.toNat).head? = some '0' → digits.take whole.toNat = ['0'] := by
    rw [List.head?_take, if_neg (by omega)]
    exact fun h => absurd h hhead
  have hread := magnitude_point hfront hzero hfraction hrest
  have hlength : -((digits.drop whole.toNat).length : ℤ) = whole - digits.length := by
    simp
    omega
  rw [List.take_append_drop, hlength] at hread
  rw [positionalText, if_neg (by omega), if_neg (by omega), ← hread]
  simp

theorem magnitude_above (pointZero : Bool) (hd : IsDigits digits)
    (hzero : digits.head? = some '0' → digits = ['0'] ∧ whole = 1) (hpos : 0 < whole)
    (hle : digits.length ≤ whole.toNat) : ∃ d, (∀ rest, EndsNumber rest →
      magnitude? ((positionalText pointZero digits whole).toList ++ rest) = some (d, rest)) ∧
      d.value = natural digits * 10 ^ (whole - digits.length) := by
  set zeros := List.replicate (whole.toNat - digits.length) '0' with hzeros
  have hfront : IsDigits (digits ++ zeros) := isDigits_append_zeros hd _
  have hhead : (digits ++ zeros).head? = some '0' → digits ++ zeros = ['0'] := by
    rw [List.head?_append_of_ne_nil _ hd.1]
    intro h
    obtain ⟨hdigits, hwhole⟩ := hzero h
    rw [hzeros, hdigits, hwhole]
    rfl
  have hpow : (10 : ℚ) ^ (whole - digits.length) = 10 ^ (whole.toNat - digits.length) := by
    rw [← zpow_natCast]
    congr 1
    omega
  have hvalue : (natural (digits ++ zeros) : ℚ) =
      natural digits * 10 ^ (whole - digits.length) := by
    rw [natural_append_zeros, hpow]
    push_cast
    rfl
  rw [positionalText, if_neg (by omega), if_pos hle, ← hvalue]
  cases pointZero with
  | true =>
    have hnatural : natural (digits ++ zeros ++ ['0']) = natural (digits ++ zeros) * 10 ^ 1 :=
      natural_append_zeros _ 1
    refine ⟨⟨natural (digits ++ zeros ++ ['0']), -1⟩, ?_, ?_⟩
    · intro rest hrest
      have hread := magnitude_point hfront hhead isDigits_zero hrest
      simpa [hzeros] using hread
    · rw [hnatural, Digits.value]
      push_cast
      rw [mul_assoc, zpow_neg_one, mul_inv_cancel₀ (by norm_num), mul_one]
  | false =>
    refine ⟨⟨natural (digits ++ zeros), 0⟩, ?_, ?_⟩
    · intro rest hrest
      simpa [hzeros] using magnitude_whole hfront hhead hrest
    · rw [Digits.value, zpow_zero, mul_one]

theorem exponent_sign {plus : String} (hplus : plus = "" ∨ plus = "+") (leading : ℤ)
    (hrest : EndsDigits rest) :
    exponent? ('e' :: ((if 0 ≤ leading then plus else "-").toList ++
      (Nat.toDigits 10 leading.natAbs ++ rest))) = some (leading, rest) := by
  have hdigits := isDigits_toDigits leading.natAbs
  have hread := digits_append hdigits hrest
  rw [exponent?]
  split
  · next h =>
    have habs : (natural (Nat.toDigits 10 leading.natAbs) : ℤ) = leading := by
      rw [natural_toDigits]
      omega
    rcases hplus with rfl | rfl
    · rw [String.toList_empty, List.nil_append, signed?, hread]
      · exact congrArg (fun k => some (k, rest)) habs
      · exact hdigits.append_ne_cons rfl
      · exact hdigits.append_ne_cons rfl
    · rw [show "+".toList = ['+'] from rfl, List.singleton_append, signed?, hread]
      exact congrArg (fun k => some (k, rest)) habs
  · next h =>
    have habs : -(natural (Nat.toDigits 10 leading.natAbs) : ℤ) = leading := by
      rw [natural_toDigits]
      omega
    rw [show "-".toList = ['-'] from rfl, List.singleton_append, signed?, hread]
    exact congrArg (fun k => some (k, rest)) habs

theorem magnitude_positionalText (pointZero : Bool) (hd : IsDigits digits)
    (hzero : digits.head? = some '0' → digits = ['0'] ∧ whole = 1) :
    ∃ d, (∀ rest, EndsNumber rest →
      magnitude? ((positionalText pointZero digits whole).toList ++ rest) = some (d, rest)) ∧
      d.value = natural digits * 10 ^ (whole - digits.length) := by
  rcases le_or_gt whole 0 with hle | hpos
  · exact ⟨_, fun _ hrest => magnitude_below pointZero hd hle hrest, rfl⟩
  · rcases Nat.lt_or_ge whole.toNat digits.length with hlt | hge
    · have hhead : digits.head? ≠ some '0' := by
        intro h
        rw [(hzero h).1, List.length_singleton] at hlt
        omega
      exact ⟨_, fun _ hrest => magnitude_between pointZero hd hhead hpos hlt hrest, rfl⟩
    · exact magnitude_above pointZero hd hzero hpos hge

theorem magnitude_scaled {c : Char} {ds tail : List Char} {leading : ℤ} (hd : IsDigits (c :: ds))
    (hend : EndsDigits tail) (hpoint : ∀ c ∈ tail.head?, c ≠ '.')
    (hexponent : exponent? tail = some (leading, rest)) :
    magnitude? (c :: ((if ds = [] then [] else '.' :: ds) ++ tail)) =
      some (⟨natural (c :: ds), leading - ds.length⟩, rest) := by
  have hfirst : IsDigits [c] := ⟨by simp, by simpa using hd.2 c List.mem_cons_self⟩
  have hzero : [c].head? = some '0' → [c] = ['0'] := by simp
  rcases eq_or_ne ds [] with rfl | hne
  · exact magnitude_of_parts (whole_append hfirst hzero hend) (fraction_none hpoint) hexponent
  · have hds : IsDigits ds := ⟨hne, fun x hx => hd.2 x (List.mem_cons_of_mem c hx)⟩
    have hends : EndsDigits ('.' :: (ds ++ tail)) := endsDigits_cons rfl
    rw [if_neg hne]
    exact magnitude_of_parts (whole_append hfirst hzero hends) (fraction_point hds hend) hexponent

theorem magnitude_exponentText {plus : String} (hplus : plus = "" ∨ plus = "+") (n : ℕ)
    (leading : ℤ) (hrest : EndsDigits rest) :
    magnitude? ((exponentText plus (Nat.toDigits 10 n) leading).toList ++ rest) =
      some (⟨n, leading + 1 - (Nat.toDigits 10 n).length⟩, rest) := by
  have hexponent := exponent_sign hplus leading hrest
  have hdigits := isDigits_toDigits n
  have hnatural := natural_toDigits n
  obtain ⟨c, ds, hcons⟩ := List.exists_cons_of_ne_nil hdigits.1
  rw [hcons] at hdigits hnatural ⊢
  have hread := magnitude_scaled hdigits (endsDigits_cons rfl) (by simp) hexponent
  have hlength : leading - ds.length = leading + 1 - ((c :: ds).length : ℤ) := by
    simp
  rw [hnatural, hlength] at hread
  rw [← hread]
  cases ds <;> simp [exponentText]

theorem magnitude_digitsText {l : Layout} (hplus : l.plus = "" ∨ l.plus = "+") {d : Digits}
    (hd : d.coefficient = 0 → d.exponent = 0) :
    ∃ d', (∀ rest, EndsNumber rest →
      magnitude? ((l.digitsText d).toList ++ rest) = some (d', rest)) ∧ d'.value = d.value := by
  have hnatural := natural_toDigits d.coefficient
  rw [Layout.digitsText]
  split
  · have hzero : (Nat.toDigits 10 d.coefficient).head? = some '0' →
        Nat.toDigits 10 d.coefficient = ['0'] ∧
          d.exponent + (Nat.toDigits 10 d.coefficient).length - 1 + 1 = 1 := by
      intro h
      have hcoefficient := eq_zero_of_head h
      rw [hcoefficient, hd hcoefficient]
      simp
    obtain ⟨d', hread, hvalue⟩ := magnitude_positionalText l.pointZero
      (isDigits_toDigits d.coefficient) hzero
    refine ⟨d', hread, ?_⟩
    rw [hvalue, hnatural, Digits.value]
    congr 2
    ring
  · refine ⟨_, fun _ hrest => magnitude_exponentText hplus d.coefficient _ hrest.endsDigits, ?_⟩
    rw [Digits.value, Digits.value]
    congr 2
    ring

end Layouts

section Characters

variable {digits : List Char}

def isNumberChar (c : Char) : Bool :=
  c.isDigit || c = '.' || c = 'e' || c = '+' || c = '-'

theorem all_isNumberChar (hd : ∀ c ∈ digits, c.isDigit = true) :
    digits.all isNumberChar = true := by
  rw [List.all_eq_true]
  intro c hc
  simp [isNumberChar, hd c hc]

theorem all_positionalText (hd : ∀ c ∈ digits, c.isDigit = true) (pointZero : Bool) (whole : ℤ) :
    (positionalText pointZero digits whole).toList.all isNumberChar = true := by
  have hdigits := all_isNumberChar hd
  have hzeros (n : ℕ) : (List.replicate n '0').all isNumberChar = true := by simp [isNumberChar]
  have htake : (digits.take whole.toNat).all isNumberChar = true :=
    all_isNumberChar fun c hc => hd c (List.mem_of_mem_take hc)
  have hdrop : (digits.drop whole.toNat).all isNumberChar = true :=
    all_isNumberChar fun c hc => hd c (List.mem_of_mem_drop hc)
  unfold positionalText
  split
  · simp only [String.toList_append, String.toList_ofList, List.all_append, hzeros, hdigits]
    rfl
  · split
    · simp only [String.toList_append, String.toList_ofList, List.all_append, hzeros, hdigits]
      cases pointZero <;> rfl
    · simp only [String.toList_append, String.toList_ofList, List.all_append, htake, hdrop]
      rfl

theorem all_exponentText {plus : String} (hplus : plus = "" ∨ plus = "+")
    (hd : ∀ c ∈ digits, c.isDigit = true) (leading : ℤ) :
    (exponentText plus digits leading).toList.all isNumberChar = true := by
  have htake : (digits.take 1).all isNumberChar = true :=
    all_isNumberChar fun c hc => hd c (List.mem_of_mem_take hc)
  have hdrop : (digits.drop 1).all isNumberChar = true :=
    all_isNumberChar fun c hc => hd c (List.mem_of_mem_drop hc)
  have hexponent := all_isNumberChar (isDigits_toDigits leading.natAbs).2
  have hsign : (if 0 ≤ leading then plus else "-").toList.all isNumberChar = true := by
    split
    · rcases hplus with rfl | rfl <;> rfl
    · rfl
  have hfraction : (if digits.length ≤ 1 then "" else
      "." ++ String.ofList (digits.drop 1)).toList.all isNumberChar = true := by
    split
    · rfl
    · simp only [String.toList_append, String.toList_ofList, List.all_append, hdrop]
      rfl
  simp only [exponentText, String.toList_append, String.toList_ofList, List.all_append,
    Nat.toString_eq_ofList_toDigits, htake, hfraction, hsign, hexponent, Bool.and_true,
    Bool.true_and]
  rfl

theorem all_digitsText {l : Layout} (hplus : l.plus = "" ∨ l.plus = "+") (d : Digits) :
    (l.digitsText d).toList.all isNumberChar = true := by
  have hd := (isDigits_toDigits d.coefficient).2
  rw [Layout.digitsText]
  split
  · exact all_positionalText hd _ _
  · exact all_exponentText hplus hd _

end Characters

end LeibnizSieve.Decimal
