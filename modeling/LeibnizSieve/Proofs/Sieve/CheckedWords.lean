import LeibnizSieve.Proofs.Attempt
import LeibnizSieve.Proofs.Sieve.Primality

/-! Checked operations on words and flags. A division by zero, a sum or product past the last
word, a range without a step and an index past the last flag are faults. A range ends where its
next number would be past its last one, be that a word or not. Main statements: which numbers a
range has, and that clearing them is what the quotient of the words counts out. -/

namespace LeibnizSieve.Sieve

inductive Fault where
  | divisionByZero
  | overflow
  | stepOfZero
  | outOfBounds
  deriving DecidableEq, Repr

namespace Checked

def divide (a b : UInt64) : Except Fault UInt64 :=
  if b = 0 then .error .divisionByZero else .ok (a / b)

def add (a b : UInt64) : Except Fault UInt64 :=
  if a.toNat + b.toNat < 2 ^ 64 then .ok (a + b) else .error .overflow

def multiply (a b : UInt64) : Except Fault UInt64 :=
  if a.toNat * b.toNat < 2 ^ 64 then .ok (a * b) else .error .overflow

def flag (flags : Array Bool) (index : UInt64) : Except Fault Bool :=
  if h : index.toNat < flags.size then .ok flags[index.toNat] else .error .outOfBounds

def clear (flags : Array Bool) (index : UInt64) : Except Fault (Array Bool) :=
  if index.toNat < flags.size then .ok (flags.setIfInBounds index.toNat false)
  else .error .outOfBounds

theorem divide_ok {a b : UInt64} (h : b ≠ 0) : divide a b = .ok (a / b) := if_neg h

theorem add_ok {a b : UInt64} (h : a.toNat + b.toNat < 2 ^ 64) : add a b = .ok (a + b) := if_pos h

theorem multiply_ok {a b : UInt64} (h : a.toNat * b.toNat < 2 ^ 64) :
    multiply a b = .ok (a * b) := if_pos h

theorem flag_ok {flags : Array Bool} {index : UInt64} (h : index.toNat < flags.size) :
    flag flags index = .ok (flags.getD index.toNat false) := by
  simp [flag, h]

theorem clear_ok {flags : Array Bool} {index : UInt64} (h : index.toNat < flags.size) :
    clear flags index = .ok (flags.setIfInBounds index.toNat false) := if_pos h

/-- The number after `index` in a range up to `last`. A sum past the last word ends the range, and
is no fault. -/
def following (step last index : UInt64) : Option UInt64 :=
  match add index step with
  | .ok next => if next ≤ last then some next else none
  | .error _ => none

theorem following_eq (step last index : UInt64) :
    following step last index =
      if index.toNat + step.toNat ≤ last.toNat then some (index + step) else none := by
  have hl := last.toNat_lt
  by_cases hw : index.toNat + step.toNat < 2 ^ 64
  · have hsum : (index + step).toNat = index.toNat + step.toNat := toNat_add_of_lt hw
    simp only [following, add, hw, ↓reduceIte, UInt64.le_iff_toNat_le, hsum]
  · have hn : ¬ index.toNat + step.toNat ≤ last.toNat := by omega
    simp only [following, add, hw, hn, ↓reduceIte]

theorem toNat_following {step last index next : UInt64}
    (h : following step last index = some next) :
    next.toNat = index.toNat + step.toNat ∧ next.toNat ≤ last.toNat := by
  have hl := last.toNat_lt
  rw [following_eq] at h
  split at h
  · rename_i hle
    cases h
    rw [toNat_add_of_lt (by omega)]
    exact ⟨rfl, hle⟩
  · cases h

theorem last_lt_of_following {step last index : UInt64} (h : following step last index = none) :
    last.toNat < index.toNat + step.toNat := by
  rw [following_eq, ite_eq_right_iff] at h
  by_contra hle
  cases h (Nat.le_of_not_lt hle)

theorem toNat_pos {step : UInt64} (h : step ≠ 0) : 0 < step.toNat := by
  apply Nat.pos_of_ne_zero
  intro h0
  exact h (UInt64.toNat_inj.1 h0)

def stepped (step last : UInt64) (hstep : step ≠ 0) (index : UInt64) : List UInt64 :=
  match _h : following step last index with
  | some next => index :: stepped step last hstep next
  | none => [index]
termination_by last.toNat - index.toNat
decreasing_by
  have := toNat_following _h
  have := toNat_pos hstep
  omega

theorem mem_stepped {step last index m : UInt64} (hstep : step ≠ 0)
    (hle : index.toNat ≤ last.toNat) :
    m ∈ stepped step last hstep index ↔
      index.toNat ≤ m.toNat ∧ m.toNat ≤ last.toNat ∧ step.toNat ∣ m.toNat - index.toNat := by
  have hpos := toNat_pos hstep
  fun_induction stepped step last hstep index with
  | case1 index next h ih =>
    obtain ⟨hnext, hlast⟩ := toNat_following h
    have hmem := ih hlast
    simp only [List.mem_cons, hmem]
    constructor
    · intro h
      rcases h with heq | h
      · subst heq
        simpa using hle
      · have hge := h.1
        refine ⟨by omega, h.2.1, ?_⟩
        have hsplit : m.toNat - index.toNat = m.toNat - next.toNat + step.toNat := by omega
        rw [hsplit]
        exact Nat.dvd_add h.2.2 (Nat.dvd_refl _)
    · intro h
      have hge := h.1
      by_cases heq : m = index
      · exact .inl heq
      · have hlt : 0 < m.toNat - index.toNat := by
          have : m.toNat ≠ index.toNat := fun e => heq (UInt64.toNat_inj.1 e)
          omega
        have hstep' := Nat.le_of_dvd hlt h.2.2
        refine .inr ⟨by omega, h.2.1, ?_⟩
        have hsplit : m.toNat - next.toNat = m.toNat - index.toNat - step.toNat := by omega
        rw [hsplit]
        exact Nat.dvd_sub h.2.2 (Nat.dvd_refl _)
  | case2 index h =>
    have hlast := last_lt_of_following h
    rw [List.mem_singleton]
    constructor
    · intro heq
      subst heq
      simpa using hle
    · intro h
      have hge := h.1
      have hm := h.2.1
      have hzero := Nat.eq_zero_of_dvd_of_lt h.2.2 (by omega)
      apply UInt64.toNat_inj.1
      omega

theorem foldlM_clear {indices : List UInt64} {flags : Array Bool}
    (h : ∀ i ∈ indices, i.toNat < flags.size) :
    indices.foldlM clear flags =
      .ok (indices.foldl (fun flags i => flags.setIfInBounds i.toNat false) flags) := by
  induction indices generalizing flags with
  | nil => rfl
  | cons i rest ih =>
    have hi : i.toNat < flags.size := h i List.mem_cons_self
    rw [List.foldlM_cons, List.foldl_cons, clear_ok hi, ok_bind]
    apply ih
    intro j hj
    simpa using h j (List.mem_cons_of_mem i hj)

theorem foldl_stepped {step last index : UInt64} (hstep : step ≠ 0)
    (hle : index.toNat ≤ last.toNat) (flags : Array Bool) :
    (stepped step last hstep index).foldl (fun flags i => flags.setIfInBounds i.toNat false)
      flags = clearEvery step ((last.toNat - index.toNat) / step.toNat + 1) index flags := by
  have hpos := toNat_pos hstep
  fun_induction stepped step last hstep index generalizing flags with
  | case1 index next h ih =>
    obtain ⟨hnext, hlast⟩ := toNat_following h
    have hsum : next = index + step := by
      rw [following_eq, if_pos (by omega)] at h
      exact (Option.some.inj h).symm
    have hcount : (last.toNat - index.toNat) / step.toNat =
        (last.toNat - next.toNat) / step.toNat + 1 := by
      rw [← Nat.add_div_right _ hpos]
      congr 1
      omega
    rw [List.foldl_cons, ih hlast, hcount, hsum]
    rfl
  | case2 index h =>
    have hlast := last_lt_of_following h
    rw [Nat.div_eq_of_lt (by omega)]
    rfl

end Checked

end LeibnizSieve.Sieve
