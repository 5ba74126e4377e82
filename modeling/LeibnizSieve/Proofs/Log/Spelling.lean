import LeibnizSieve.Log.Directive
import LeibnizSieve.Proofs.Decimal.Notation
import Mathlib.Data.Bool.AllAny

/-! How a level can be written. Main statement: what is read as a level is its name in any case or
its rank in digits, and there is no comma and no blank in it. -/

namespace LeibnizSieve.Log

open Text Decimal

def AnyCase (text name : List Char) : Prop :=
  List.Forall₂ (fun c d => c = d ∨ c = d.toUpper) text name

/-- The texts of a level. Its rank may have zeros in front, and a plus sign before them. -/
inductive Spells : List Char → Level → Prop where
  | name {text : List Char} {level : Level} : AnyCase text level.name.toList → Spells text level
  | number {digits : List Char} {level : Level} : IsDigits digits →
      natural digits = level.rank → Spells digits level
  | plus {digits : List Char} {level : Level} : IsDigits digits →
      natural digits = level.rank → Spells ('+' :: digits) level

section Names

variable {text : List Char} {level : Level}

theorem toNat_toLower (c : Char) :
    c.toLower.toNat = if 65 ≤ c.toNat ∧ c.toNat ≤ 90 then c.toNat + 32 else c.toNat := by
  have hrange : (c.val ≥ 'A'.val ∧ c.val ≤ 'Z'.val) ↔ 65 ≤ c.toNat ∧ c.toNat ≤ 90 := Iff.rfl
  unfold Char.toLower
  simp only [hrange]
  split_ifs with h
  · have hsum : (c.val + ('a'.val - 'A'.val)).toNat = (c.toNat + 32) % 2 ^ 32 := rfl
    rw [Char.toNat, hsum]
    omega
  · rfl

theorem toNat_toUpper (c : Char) :
    c.toUpper.toNat = if 97 ≤ c.toNat ∧ c.toNat ≤ 122 then c.toNat - 32 else c.toNat := by
  have hrange : ('a'.val ≤ c.val ∧ c.val ≤ 'z'.val) ↔ 97 ≤ c.toNat ∧ c.toNat ≤ 122 := Iff.rfl
  unfold Char.toUpper
  simp only [hrange]
  split_ifs with h
  · -- the shift is negative, so it is a large word
    have hshift : ('A'.val - 'a'.val).toNat = 4294967264 := by decide
    have hsum := UInt32.toNat_add c.val ('A'.val - 'a'.val)
    rw [hshift] at hsum
    rw [Char.toNat, hsum]
    change (c.toNat + 4294967264) % 2 ^ 32 = c.toNat - 32
    omega
  · rfl

theorem toLower_eq_iff {c d : Char} (hd : 'a' ≤ d ∧ d ≤ 'z') :
    c.toLower = d ↔ c = d ∨ c = d.toUpper := by
  have hd' : 97 ≤ d.toNat ∧ d.toNat ≤ 122 := hd
  rw [← Char.toNat_inj, ← Char.toNat_inj, ← Char.toNat_inj, toNat_toLower, toNat_toUpper]
  split_ifs <;> omega

theorem map_toLower_eq_iff {name : List Char} (hname : ∀ d ∈ name, 'a' ≤ d ∧ d ≤ 'z') :
    text.map Char.toLower = name ↔ AnyCase text name := by
  induction text generalizing name with
  | nil => cases name <;> simp [AnyCase]
  | cons c text ih =>
    cases name with
    | nil => simp [AnyCase]
    | cons d name =>
      rw [List.forall_mem_cons] at hname
      rw [List.map_cons, List.cons.injEq, toLower_eq_iff hname.1, ih hname.2]
      simp only [AnyCase, List.forall₂_cons]

theorem name_small (level : Level) : ∀ d ∈ level.name.toList, 'a' ≤ d ∧ d ≤ 'z' := by
  refine List.all_iff_forall_prop.1 ?_
  cases level <;> decide

theorem ofName_eq_some : Level.ofName? text = some level ↔ AnyCase text level.name.toList := by
  rw [← map_toLower_eq_iff (name_small level), ← String.toList_ofList (l := text.map Char.toLower),
    String.toList_inj, Level.ofName?]
  constructor
  · intro h
    split at h <;> cases h <;> assumption
  · intro h
    rw [h]
    cases level <;> rfl

end Names

section Numbers

variable {digits text : List Char} {n : ℕ} {level : Level}

theorem number_digits : (if digits ≠ [] ∧ digits.all Char.isDigit then
      some (digits.foldl (fun n c => 10 * n + (c.toNat - '0'.toNat)) 0) else none) = some n ↔
    IsDigits digits ∧ natural digits = n := by
  simp [IsDigits, natural, Nat.ofDigitChars]

theorem number_plus :
    Level.number? ('+' :: digits) = some n ↔ IsDigits digits ∧ natural digits = n :=
  number_digits

theorem number_bare (h : ∀ rest, text ≠ '+' :: rest) :
    Level.number? text = some n ↔ IsDigits text ∧ natural text = n := by
  rw [← number_digits, Level.number?]
  exact fun rest heq => h rest heq

theorem number_eq_some : Level.number? text = some n ↔ ∃ digits, IsDigits digits ∧
    natural digits = n ∧ (text = digits ∨ text = '+' :: digits) := by
  by_cases h : ∃ rest, text = '+' :: rest
  · obtain ⟨rest, rfl⟩ := h
    rw [number_plus]
    constructor
    · rintro ⟨hrest, hn⟩
      exact ⟨rest, hrest, hn, .inr rfl⟩
    · rintro ⟨digits, hdigits, hn, rfl | heq⟩
      · exact absurd (hdigits.2 '+' List.mem_cons_self) (by decide)
      · cases heq
        exact ⟨hdigits, hn⟩
  · rw [number_bare (not_exists.1 h)]
    constructor
    · rintro ⟨htext, hn⟩
      exact ⟨text, htext, hn, .inl rfl⟩
    · rintro ⟨digits, hdigits, hn, rfl | rfl⟩
      · exact ⟨hdigits, hn⟩
      · exact absurd ⟨digits, rfl⟩ h

theorem ofRank_eq_some : Level.ofRank? n = some level ↔ n = level.rank := by
  constructor
  · intro h
    unfold Level.ofRank? at h
    split at h <;> cases h <;> rfl
  · rintro rfl
    exact Level.ofRank_rank level

theorem rankText_eq_some : (Level.number? text).bind Level.ofRank? = some level ↔
    ∃ digits, IsDigits digits ∧ natural digits = level.rank ∧
      (text = digits ∨ text = '+' :: digits) := by
  rw [Option.bind_eq_some_iff, ← number_eq_some]
  constructor
  · rintro ⟨n, hn, hlevel⟩
    rwa [← ofRank_eq_some.1 hlevel]
  · intro hn
    exact ⟨_, hn, Level.ofRank_rank level⟩

end Numbers

section Texts

variable {text : List Char} {level : Level}

theorem AnyCase.letter (h : AnyCase text level.name.toList) : ∀ c ∈ text,
    65 ≤ c.toNat ∧ c.toNat ≤ 90 ∨ 97 ≤ c.toNat ∧ c.toNat ≤ 122 := by
  intro c hc
  rw [← map_toLower_eq_iff (name_small level)] at h
  have hmem : c.toLower ∈ level.name.toList := h ▸ List.mem_map_of_mem hc
  have hsmall : 97 ≤ c.toLower.toNat ∧ c.toLower.toNat ≤ 122 := name_small level _ hmem
  rw [toNat_toLower] at hsmall
  split_ifs at hsmall <;> omega

theorem toNat_of_isDigit {c : Char} (h : c.isDigit = true) : 48 ≤ c.toNat ∧ c.toNat ≤ 57 := by
  simpa [Char.isDigit, UInt32.le_iff_toNat_le] using h

theorem name_nonempty (h : AnyCase text level.name.toList) : text ≠ [] := by
  rintro rfl
  cases level <;> cases h

theorem AnyCase.number_none (h : AnyCase text level.name.toList) : Level.number? text = none := by
  rw [Option.eq_none_iff_forall_ne_some]
  intro n hn
  obtain ⟨digits, hdigits, -, htext⟩ := number_eq_some.1 hn
  obtain ⟨d, ds, rfl⟩ := List.exists_cons_of_ne_nil hdigits.1
  have hd := toNat_of_isDigit (hdigits.2 d List.mem_cons_self)
  have hmem : d ∈ text := by
    rcases htext with rfl | rfl <;> simp
  have hletter := h.letter d hmem
  omega

theorem Spells.nonempty (h : Spells text level) : text ≠ [] := by
  cases h with
  | name hname => exact name_nonempty hname
  | number hdigits => exact hdigits.1
  | plus => simp

theorem ofText_eq_some (hne : text ≠ []) :
    Level.ofText? text = some level ↔ Spells text level := by
  rw [Level.ofText?]
  constructor
  · intro h
    split at h
    · next shown hnumber =>
      cases h
      obtain ⟨digits, hdigits, hrank, rfl | rfl⟩ := rankText_eq_some.1 hnumber
      · exact .number hdigits hrank
      · exact .plus hdigits hrank
    · rw [if_neg hne] at h
      exact .name (ofName_eq_some.1 h)
  · intro h
    cases h with
    | name hname =>
      rw [hname.number_none, Option.bind_none, if_neg hne]
      exact ofName_eq_some.2 hname
    | number hdigits hrank => rw [rankText_eq_some.2 ⟨_, hdigits, hrank, .inl rfl⟩]
    | plus hdigits hrank => rw [rankText_eq_some.2 ⟨_, hdigits, hrank, .inr rfl⟩]

theorem levelOf_eq_ok : Directive.levelOf text = .ok level ↔
    text = [] ∧ level = .trace ∨ Spells text level := by
  rw [Directive.levelOf]
  split_ifs with hempty
  · subst hempty
    constructor
    · intro h
      cases h
      exact .inl ⟨rfl, rfl⟩
    · rintro (⟨-, rfl⟩ | h)
      · rfl
      · exact absurd rfl h.nonempty
  · rw [← ofText_eq_some hempty]
    split
    · next shown h => simp [hempty, h]
    · next h => simp [hempty, h, Directive.refuse]

theorem isBlank_of_visible {c : Char} (h : 33 ≤ c.toNat ∧ c.toNat ≤ 126) : isBlank c = false := by
  simp only [isBlank, Bool.or_eq_false_iff, Bool.and_eq_false_iff, decide_eq_false_iff_not]
  omega

theorem Spells.plain (h : Spells text level) : ∀ c ∈ text, c ≠ ',' ∧ isBlank c = false := by
  have hvisible {c : Char} (hc : c.toNat = 43 ∨ 48 ≤ c.toNat ∧ c.toNat ≤ 57 ∨
      65 ≤ c.toNat ∧ c.toNat ≤ 90 ∨ 97 ≤ c.toNat ∧ c.toNat ≤ 122) :
      c ≠ ',' ∧ isBlank c = false := by
    refine ⟨?_, isBlank_of_visible (by omega)⟩
    rintro rfl
    exact absurd hc (by decide)
  intro c hc
  apply hvisible
  cases h with
  | name hname => exact .inr (.inr (hname.letter c hc))
  | number hdigits => exact .inr (.inl (toNat_of_isDigit (hdigits.2 c hc)))
  | plus hdigits =>
    rcases List.mem_cons.1 hc with rfl | hc
    · exact .inl rfl
    · exact .inr (.inl (toNat_of_isDigit (hdigits.2 c hc)))

end Texts

end LeibnizSieve.Log
