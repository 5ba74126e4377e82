import LeibnizSieve.Sieve.Table
import Mathlib.Data.Nat.Prime.Basic
import Mathlib.Tactic.NormNum.Prime
import Mathlib.Tactic.Ring

/-! What a sweep leaves set. At the head of the outer loop the flag of `k` says that no candidate
passed so far divides `k` properly. A candidate that is skipped adds nothing to that, as one of
its own divisors has been passed; one that is processed needs its multiples cleared only from its
square on. When the square is past the limit, the flags are those of the primes. -/

namespace LeibnizSieve.Sieve

/-- No number from two on and below `p` divides `k` properly. -/
def Survives (p k : Nat) : Prop :=
  2 ≤ k ∧ ∀ d, 2 ≤ d → d < p → d < k → ¬ d ∣ k

theorem survives_two (k : Nat) : Survives 2 k ↔ 2 ≤ k := by
  constructor
  · intro h
    exact h.1
  · intro h
    refine ⟨h, ?_⟩
    intro d hd hlt
    omega

theorem survives_self {p : Nat} : Survives p p ↔ p.Prime := by
  rw [Nat.prime_def_lt']
  constructor
  · intro h
    exact ⟨h.1, fun d hd hlt => h.2 d hd hlt hlt⟩
  · intro h
    exact ⟨h.1, fun d hd hlt _ => h.2 d hd hlt⟩

theorem survives_succ {p k : Nat} (h2 : 2 ≤ p) :
    Survives (p + 1) k ↔ Survives p k ∧ ¬ (p < k ∧ p ∣ k) := by
  constructor
  · intro h
    refine ⟨⟨h.1, fun d hd hlt => h.2 d hd (by omega)⟩, ?_⟩
    intro hp
    exact h.2 p h2 (by omega) hp.1 hp.2
  · intro h
    refine ⟨h.1.1, ?_⟩
    intro d hd hlt hdk hdvd
    by_cases heq : d = p
    · subst heq
      exact h.2 ⟨hdk, hdvd⟩
    · exact h.1.2 d hd (by omega) hdk hdvd

theorem square_le_of_survives {p k : Nat} (h2 : 2 ≤ p) (hs : Survives p k) (hlt : p < k)
    (hdvd : p ∣ k) : p * p ≤ k := by
  obtain ⟨m, rfl⟩ := hdvd
  have hm : 2 ≤ m := by
    by_contra hsmall
    have hle : p * m ≤ p * 1 := Nat.mul_le_mul_left p (by omega)
    omega
  -- a cofactor below the candidate would be one of the divisors that a survivor does not have
  by_contra hsq
  have hmp : m < p := by
    by_contra hge
    exact hsq (Nat.mul_le_mul_left p (by omega))
  have hmk : m < p * m := by
    have hle := Nat.mul_le_mul_right m h2
    omega
  exact hs.2 m hm hmp hmk (Nat.dvd_mul_left m p)

theorem survives_succ_iff_square {p k : Nat} (h2 : 2 ≤ p) :
    Survives (p + 1) k ↔ Survives p k ∧ ¬ (p * p ≤ k ∧ p ∣ k) := by
  rw [survives_succ h2]
  have hpp : p * 2 ≤ p * p := Nat.mul_le_mul_left p h2
  -- a multiple below the square has a smaller divisor, so an earlier turn took it out
  constructor
  · intro h
    refine ⟨h.1, ?_⟩
    intro hp
    exact h.2 ⟨by omega, hp.2⟩
  · intro h
    refine ⟨h.1, ?_⟩
    intro hp
    exact h.2 ⟨square_le_of_survives h2 h.1 hp.1 hp.2, hp.2⟩

theorem survives_succ_of_not_self {p k : Nat} (h2 : 2 ≤ p) (hp : ¬ Survives p p) :
    Survives (p + 1) k ↔ Survives p k := by
  rw [survives_succ h2]
  constructor
  · intro h
    exact h.1
  · intro hs
    refine ⟨hs, ?_⟩
    intro hdiv
    -- a proper divisor of the candidate is one of `k` too
    apply hp
    refine ⟨h2, ?_⟩
    intro d hd hdp _ hddvd
    have hlt := hdiv.1
    exact hs.2 d hd hdp (by omega) (hddvd.trans hdiv.2)

theorem survives_iff_prime {p k : Nat} (h : k < p * p) : Survives p k ↔ k.Prime := by
  constructor
  · intro hs
    have h2 := hs.1
    by_contra hnp
    have hsq : k.minFac ^ 2 ≤ k := Nat.minFac_sq_le_self (by omega) hnp
    rw [pow_two] at hsq
    have hprime : k.minFac.Prime := Nat.minFac_prime (by omega)
    have hlt : k.minFac < p := by
      by_contra hge
      have := Nat.mul_le_mul (Nat.le_of_not_lt hge) (Nat.le_of_not_lt hge)
      omega
    have hltk : k.minFac < k := by
      have := Nat.mul_le_mul_left k.minFac hprime.two_le
      have := hprime.two_le
      omega
    exact hs.2 k.minFac hprime.two_le hlt hltk (Nat.minFac_dvd k)
  · intro hk
    refine ⟨hk.two_le, ?_⟩
    intro d hd _ hlt hdvd
    have := (Nat.dvd_prime hk).1 hdvd
    omega

theorem getD_flag (flags : Array Bool) (k : Nat) :
    flags.getD k false = true ↔ flags[k]? = some true := by
  rw [Array.getD_eq_getD_getElem?]
  cases flags[k]? <;> simp

theorem set_flag (flags : Array Bool) (i k : Nat) :
    (flags.setIfInBounds i false)[k]? = some true ↔ flags[k]? = some true ∧ k ≠ i := by
  rw [Array.getElem?_setIfInBounds]
  by_cases h : i = k
  · subst h
    by_cases hi : i < flags.size <;> simp [hi]
  · have h' : ¬ k = i := fun e => h e.symm
    simp [h, h']

theorem clearEvery_flag (step : UInt64) (count : Nat) (index : UInt64) (flags : Array Bool)
    (k : Nat) (hw : ∀ i < count, index.toNat + i * step.toNat < 2 ^ 64) :
    (clearEvery step count index flags)[k]? = some true ↔
      flags[k]? = some true ∧ ∀ i < count, k ≠ index.toNat + i * step.toNat := by
  induction count generalizing index flags with
  | zero => simp [clearEvery]
  | succ count ih =>
    by_cases hc : count = 0
    · subst hc
      simp [clearEvery, set_flag]
    · have hnext : (index + step).toNat = index.toNat + step.toNat :=
        toNat_add_of_lt (by simpa using hw 1 (by omega))
      have hrow (i : Nat) : (index + step).toNat + i * step.toNat =
          index.toNat + (i + 1) * step.toNat := by
        rw [hnext]
        ring
      rw [clearEvery, ih, set_flag]
      · simp only [hrow]
        constructor
        · intro h
          refine ⟨h.1.1, ?_⟩
          intro i hi
          cases i with
          | zero => simpa using h.1.2
          | succ i => exact h.2 i (by omega)
        · intro h
          refine ⟨⟨h.1, by simpa using h.2 0 (by omega)⟩, ?_⟩
          intro i hi
          exact h.2 (i + 1) (by omega)
      · intro i hi
        rw [hrow]
        exact hw (i + 1) (by omega)

theorem toNat_square {limit p : UInt64} (h : p.toNat * p.toNat ≤ limit.toNat) :
    (p * p).toNat = p.toNat * p.toNat := by
  have hl := limit.toNat_lt
  rw [UInt64.toNat_mul]
  exact Nat.mod_eq_of_lt (by omega)

theorem toNat_multiples {limit p : UInt64} (h : p.toNat * p.toNat ≤ limit.toNat) :
    ((limit - p * p) / p).toNat = (limit.toNat - p.toNat * p.toNat) / p.toNat := by
  have hle : p * p ≤ limit := by
    rw [UInt64.le_iff_toNat_le, toNat_square h]
    exact h
  rw [UInt64.toNat_div, UInt64.toNat_sub_of_le _ _ hle, toNat_square h]

theorem clearMultiples_flag {limit p : UInt64} (flags : Array Bool) (k : Nat)
    (hp : 0 < p.toNat) (h : p.toNat * p.toNat ≤ limit.toNat) :
    (clearMultiples limit p flags)[k]? = some true ↔
      flags[k]? = some true ∧
        ¬ (p.toNat * p.toNat ≤ k ∧ k ≤ limit.toNat ∧ p.toNat ∣ k) := by
  have hl := limit.toNat_lt
  have hsq := toNat_square h
  have hcount := toNat_multiples h
  have hlast : (limit.toNat - p.toNat * p.toNat) / p.toNat * p.toNat ≤
      limit.toNat - p.toNat * p.toNat := Nat.div_mul_le_self ..
  have hbound (i : Nat) (hi : i < ((limit - p * p) / p).toNat + 1) :
      p.toNat * p.toNat + i * p.toNat ≤ limit.toNat := by
    rw [hcount] at hi
    have hi' := Nat.mul_le_mul_right p.toNat (Nat.le_of_lt_succ hi)
    omega
  rw [clearMultiples, clearEvery_flag]
  · rw [hsq]
    apply and_congr_right
    intro _
    constructor
    · intro hn hk
      have hge := hk.1
      have hle := hk.2.1
      obtain ⟨i, hi⟩ := Nat.dvd_sub hk.2.2 (Nat.dvd_mul_right p.toNat p.toNat)
      refine hn i ?_ (by rw [Nat.mul_comm i]; omega)
      rw [hcount, Nat.lt_succ_iff, Nat.le_div_iff_mul_le hp, Nat.mul_comm, ← hi]
      omega
    · intro hn i hi hk
      subst hk
      refine hn ⟨Nat.le_add_right .., hbound i hi, ?_⟩
      exact Nat.dvd_add (Nat.dvd_mul_right ..) (Nat.dvd_mul_left ..)
  · intro i hi
    rw [hsq]
    have := hbound i hi
    omega

theorem goesOn_iff {limit : UInt64} {s : Sweep} (h : 0 < s.candidate.toNat) :
    s.goesOn limit = true ↔ s.candidate.toNat * s.candidate.toNat ≤ limit.toNat := by
  simp only [Sweep.goesOn, decide_eq_true_eq, UInt64.le_iff_toNat_le, UInt64.toNat_div]
  exact Nat.le_div_iff_mul_le h

namespace Sweep

/-- What holds at the head of the outer loop. -/
structure Sound (limit : UInt64) (s : Sweep) : Prop where
  two_le : 2 ≤ s.candidate.toNat
  size : s.flags.size = limit.toNat + 1
  flag : ∀ k ≤ limit.toNat, s.flags[k]? = some true ↔ Survives s.candidate.toNat k

theorem Sound.pos {limit : UInt64} {s : Sweep} (hs : s.Sound limit) : 0 < s.candidate.toNat := by
  have := hs.two_le
  omega

theorem Sound.candidate_ne_zero {limit : UInt64} {s : Sweep} (hs : s.Sound limit) :
    s.candidate ≠ 0 := by
  intro h
  have hpos := hs.pos
  rw [h] at hpos
  exact absurd hpos (by decide)

theorem Sound.limit_lt_square {limit : UInt64} {s : Sweep} (hs : s.Sound limit)
    (hstop : s.goesOn limit = false) : limit.toNat < s.candidate.toNat * s.candidate.toNat := by
  by_contra hle
  have hg := (goesOn_iff hs.pos).2 (Nat.le_of_not_lt hle)
  rw [hstop] at hg
  cases hg

theorem sound_start (limit : UInt64) : (start limit).Sound limit := by
  have h2 : 2 ≤ (2 : UInt64).toNat := by decide
  refine ⟨h2, size_start limit, ?_⟩
  intro k hk
  change ((((Array.replicate (limit.toNat + 1) true).setIfInBounds 0 false).setIfInBounds 1
    false)[k]? = some true) ↔ Survives 2 k
  rw [set_flag, set_flag, survives_two, Array.getElem?_replicate]
  have hlt : k < limit.toNat + 1 := by omega
  simp only [hlt, ↓reduceIte, true_and]
  omega

theorem flags_turn (limit : UInt64) (s : Sweep) :
    (s.turn limit).flags =
      if s.flags.getD s.candidate.toNat false then clearMultiples limit s.candidate s.flags
      else s.flags := rfl

/-- One turn keeps what holds at the head, whether its candidate is processed or skipped. -/
theorem sound_turn {limit : UInt64} {s : Sweep} (hs : s.Sound limit)
    (hg : s.goesOn limit = true) : (s.turn limit).Sound limit := by
  have hsq := (goesOn_iff hs.pos).1 hg
  have hle := (candidate_lt_of_goesOn hg).1
  have hnext := candidate_turn hg
  refine ⟨?_, (size_turn limit s).trans hs.size, ?_⟩
  · have := hs.two_le
    omega
  · intro k hk
    rw [hnext]
    have hself := hs.flag s.candidate.toNat hle
    by_cases hp : s.flags.getD s.candidate.toNat false = true
    · rw [flags_turn, if_pos hp, clearMultiples_flag _ _ hs.pos hsq, hs.flag k hk,
        survives_succ_iff_square hs.two_le]
      simp only [hk, true_and]
    · rw [flags_turn, if_neg hp]
      rw [getD_flag, hself] at hp
      rw [hs.flag k hk, survives_succ_of_not_self hs.two_le hp]

inductive Reached (limit : UInt64) : Sweep → Prop where
  | start : Reached limit (start limit)
  | turn {s : Sweep} : Reached limit s → s.goesOn limit = true → Reached limit (s.turn limit)

theorem Reached.sound {limit : UInt64} {s : Sweep} (h : Reached limit s) : s.Sound limit := by
  induction h with
  | start => exact sound_start limit
  | turn _ hg ih => exact sound_turn ih hg

theorem Reached.run {limit : UInt64} {s : Sweep} (h : Reached limit s) :
    Reached limit (s.run limit) ∧ (s.run limit).goesOn limit = false := by
  fun_induction Sweep.run limit s with
  | case1 s hg ih => exact ih (h.turn hg)
  | case2 s hg => exact ⟨h, by simpa using hg⟩

end Sweep

theorem run_start_flag (limit : UInt64) {k : Nat} (hk : k ≤ limit.toNat) :
    ((Sweep.start limit).run limit).flags[k]? = some (decide k.Prime) := by
  have hstart : Sweep.Reached limit (Sweep.start limit) := .start
  obtain ⟨hreached, hstop⟩ := hstart.run
  have hs := hreached.sound
  have hsq := hs.limit_lt_square hstop
  have hflag := (hs.flag k hk).trans (survives_iff_prime (by omega))
  have hlt : k < ((Sweep.start limit).run limit).flags.size := by
    rw [hs.size]
    omega
  rw [Array.getElem?_eq_getElem hlt] at hflag ⊢
  by_cases hp : k.Prime
  · simp only [hp, iff_true] at hflag
    simp [hp, Option.some.inj hflag]
  · simp only [hp, iff_false, Option.some.injEq, Bool.not_eq_true] at hflag
    simp [hp, hflag]

/-- A sieve whose flags are granted gives one flag for each number up to the limit, and these are
the flags of the primes. -/
theorem sieve_primes (capacity : Nat) (limit : UInt64) (h : reserve capacity limit = .ok ()) :
    ∃ table, sieve capacity limit = .ok table ∧ table.flags.size = limit.toNat + 1 ∧
      ∀ k ≤ limit.toNat, table.flags[k]? = some (decide k.Prime) := by
  obtain ⟨table, hok, hflags⟩ := sieve_of_reserve h
  refine ⟨table, hok, ?_, ?_⟩
  · rw [hflags, size_run, size_start]
  · intro k hk
    rw [hflags]
    exact run_start_flag limit hk

/-- The square of a prime at the limit is cleared, and the prime before it is not. -/
theorem sieve_primes_fortyNine :
    reserve 50 49 = .ok () ∧ ∃ table, sieve 50 49 = .ok table ∧ table.flags.size = 50 ∧
      table.flags[47]? = some true ∧ table.flags[49]? = some false := by
  have hr : reserve 50 49 = .ok () := by rw [reserve_eq_ok_iff]; decide
  obtain ⟨table, hok, hsize, hflag⟩ := sieve_primes 50 49 hr
  refine ⟨hr, table, hok, hsize, ?_, ?_⟩
  · rw [hflag 47 (by decide)]
    norm_num
  · rw [hflag 49 (by decide)]
    norm_num

end LeibnizSieve.Sieve
