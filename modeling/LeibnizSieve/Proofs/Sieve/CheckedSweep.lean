import LeibnizSieve.Proofs.Sieve.CheckedWords

/-! The sieve with every operation checked, up to the first fault, and its loops over unbounded
numbers, where the test multiplies. Main statement: once the flags are granted there is no fault,
and all of them end alike. -/

namespace LeibnizSieve.Sieve

namespace Checked

def multiples (limit p : UInt64) : Except Fault (List UInt64) := do
  let square ← multiply p p
  if h : p = 0 then .error .stepOfZero
  else if square ≤ limit then return stepped p limit h square
  else return []

def start (limit : UInt64) : Except Fault Sweep := do
  let count ← add limit 1
  let flags ← clear (Array.replicate count.toNat true) 0
  let flags ← if 1 < count then clear flags 1 else pure flags
  return ⟨2, flags⟩

def goesOn (limit : UInt64) (s : Sweep) : Except Fault Bool := do
  let quotient ← divide limit s.candidate
  return s.candidate ≤ quotient

def process (limit : UInt64) (s : Sweep) : Except Fault (Array Bool) := do
  if ← flag s.flags s.candidate then
    let indices ← multiples limit s.candidate
    indices.foldlM clear s.flags
  else return s.flags

def turn (limit : UInt64) (s : Sweep) : Except Fault Sweep := do
  let flags ← process limit s
  let next ← add s.candidate 1
  return ⟨next, flags⟩

theorem toNat_add_one {p next : UInt64} (h : add p 1 = .ok next) :
    next.toNat = p.toNat + 1 := by
  unfold add at h
  split at h
  · rename_i hw
    cases h
    exact toNat_add_of_lt hw
  · cases h

theorem candidate_turn {limit : UInt64} {s next : Sweep} (h : turn limit s = .ok next) :
    next.candidate.toNat = s.candidate.toNat + 1 := by
  unfold turn at h
  cases hp : process limit s with
  | error fault =>
    rw [hp] at h
    cases h
  | ok flags =>
    cases ha : add s.candidate 1 with
    | error fault =>
      rw [hp, ha] at h
      cases h
    | ok p =>
      rw [hp, ha] at h
      cases h
      exact toNat_add_one ha

def run (limit : UInt64) (s : Sweep) : Except Fault Sweep :=
  match goesOn limit s with
  | .error fault => .error fault
  | .ok false => .ok s
  | .ok true =>
    match _h : turn limit s with
    | .error fault => .error fault
    | .ok next => run limit next
termination_by 2 ^ 64 - s.candidate.toNat
decreasing_by
  have := candidate_turn _h
  have := next.candidate.toNat_lt
  omega

def sweep (limit : UInt64) : Except Fault Sweep := do
  run limit (← start limit)

theorem multiples_eq {limit p : UInt64} (hp : p ≠ 0)
    (hsq : p.toNat * p.toNat ≤ limit.toNat) :
    multiples limit p = .ok (stepped p limit hp (p * p)) := by
  have hl := limit.toNat_lt
  have hle : p * p ≤ limit := by
    rw [UInt64.le_iff_toNat_le, toNat_square hsq]
    exact hsq
  rw [multiples, multiply_ok (by omega), ok_bind, dif_neg hp, if_pos hle]
  rfl

theorem mem_multiples {limit p m : UInt64} (hp : p ≠ 0) (hsq : p.toNat * p.toNat ≤ limit.toNat) :
    m ∈ stepped p limit hp (p * p) ↔
      p.toNat * p.toNat ≤ m.toNat ∧ m.toNat ≤ limit.toNat ∧ p.toNat ∣ m.toNat := by
  have hs := toNat_square hsq
  rw [mem_stepped hp (by omega), hs]
  apply and_congr_right
  intro hge
  rw [Nat.dvd_sub_iff_left hge (Nat.dvd_mul_right ..)]

theorem foldlM_multiples {limit p : UInt64} {flags : Array Bool} (hp : p ≠ 0)
    (hsq : p.toNat * p.toNat ≤ limit.toNat) (hsize : flags.size = limit.toNat + 1) :
    (stepped p limit hp (p * p)).foldlM clear flags = .ok (clearMultiples limit p flags) := by
  have hin : ∀ i ∈ stepped p limit hp (p * p), i.toNat < flags.size := by
    intro i hi
    have := ((mem_multiples hp hsq).1 hi).2.1
    omega
  have hs := toNat_square hsq
  rw [foldlM_clear hin, foldl_stepped hp (by omega), clearMultiples, toNat_multiples hsq, hs]

theorem start_eq {limit : UInt64} (h : limit.toNat + 1 < 2 ^ 64) :
    start limit = .ok (Sweep.start limit) := by
  have hcount : (limit + 1).toNat = limit.toNat + 1 := toNat_add_of_lt (b := 1) h
  have hone : (1 : UInt64) < limit + 1 ↔ 1 < limit.toNat + 1 := by
    rw [UInt64.lt_iff_toNat_lt, hcount]
    rfl
  have hzero : (0 : UInt64).toNat < (Array.replicate (limit.toNat + 1) true).size := by
    rw [Array.size_replicate]
    exact Nat.succ_pos _
  rw [start, add_ok h, ok_bind, hcount, clear_ok hzero, ok_bind]
  by_cases h1 : 1 < limit.toNat + 1
  · have hin : (1 : UInt64).toNat < ((Array.replicate (limit.toNat + 1) true).setIfInBounds
        (0 : UInt64).toNat false).size := by
      rw [Array.size_setIfInBounds, Array.size_replicate]
      exact h1
    rw [if_pos (hone.2 h1), clear_ok hin]
    rfl
  · have hl : limit.toNat = 0 := by omega
    rw [if_neg (fun e => h1 (hone.1 e)), Sweep.start, hl]
    rfl

theorem goesOn_eq {limit : UInt64} {s : Sweep} (h : s.candidate ≠ 0) :
    goesOn limit s = .ok (s.goesOn limit) := by
  rw [goesOn, divide_ok h]
  rfl

theorem process_eq {limit : UInt64} {s : Sweep} (hs : s.Sound limit)
    (hg : s.goesOn limit = true) : process limit s = .ok (s.turn limit).flags := by
  have hp : s.candidate ≠ 0 := hs.candidate_ne_zero
  have hsq := (goesOn_iff hs.pos).1 hg
  have hle := (candidate_lt_of_goesOn hg).1
  have hsize := hs.size
  rw [process, flag_ok (by omega), ok_bind, Sweep.flags_turn]
  split
  · rw [multiples_eq hp hsq, ok_bind, foldlM_multiples hp hsq hsize]
  · rfl

theorem turn_eq {limit : UInt64} {s : Sweep} (hs : s.Sound limit) (hg : s.goesOn limit = true) :
    turn limit s = .ok (s.turn limit) := by
  have hw : s.candidate.toNat + (1 : UInt64).toNat < 2 ^ 64 := (candidate_lt_of_goesOn hg).2
  rw [turn, process_eq hs hg, ok_bind, add_ok hw]
  rfl

theorem run_of_turn {limit : UInt64} {s next : Sweep} (hg : goesOn limit s = .ok true)
    (ht : turn limit s = .ok next) : run limit s = run limit next := by
  rw [run, hg]
  dsimp only
  split
  · rename_i fault hf
    rw [ht] at hf
    cases hf
  · rename_i next' hn
    rw [ht] at hn
    cases hn
    rfl

theorem run_eq {limit : UInt64} {s : Sweep} (hs : s.Sound limit) :
    run limit s = .ok (s.run limit) := by
  fun_induction Sweep.run limit s with
  | case1 s hg ih =>
    have hgo : goesOn limit s = .ok true := by rw [goesOn_eq hs.candidate_ne_zero, hg]
    rw [run_of_turn hgo (turn_eq hs hg)]
    exact ih (Sweep.sound_turn hs hg)
  | case2 s hg =>
    rw [Bool.not_eq_true] at hg
    rw [run, goesOn_eq hs.candidate_ne_zero, hg]

theorem sweep_eq {limit : UInt64} (h : limit.toNat + 1 < 2 ^ 64) :
    sweep limit = .ok ((Sweep.start limit).run limit) := by
  rw [sweep, start_eq h, ok_bind, run_eq (Sweep.sound_start limit)]

end Checked

namespace Unbounded

def clearFrom (step last index : Nat) (flags : Array Bool) : Array Bool :=
  if 0 < step ∧ index ≤ last then
    clearFrom step last (index + step) (flags.setIfInBounds index false)
  else flags
termination_by last + 1 - index

def start (limit : Nat) : Array Bool :=
  ((Array.replicate (limit + 1) true).setIfInBounds 0 false).setIfInBounds 1 false

def run (limit p : Nat) (flags : Array Bool) : Nat × Array Bool :=
  if p * p ≤ limit then
    run limit (p + 1) (if flags.getD p false then clearFrom p limit (p * p) flags else flags)
  else (p, flags)
termination_by limit + 1 - p
decreasing_by
  have := Nat.le_mul_self p
  omega

def sweep (limit : Nat) : Nat × Array Bool :=
  run limit 2 (start limit)

theorem clearFrom_eq {step last index : UInt64} (hstep : step ≠ 0)
    (hle : index.toNat ≤ last.toNat) (flags : Array Bool) :
    clearFrom step.toNat last.toNat index.toNat flags =
      (Checked.stepped step last hstep index).foldl
        (fun flags i => flags.setIfInBounds i.toNat false) flags := by
  have hpos := Checked.toNat_pos hstep
  fun_induction Checked.stepped step last hstep index generalizing flags with
  | case1 index next h ih =>
    obtain ⟨hnext, hlast⟩ := Checked.toNat_following h
    rw [clearFrom, if_pos ⟨hpos, hle⟩, ← hnext, ih hlast]
    rfl
  | case2 index h =>
    have hlast := Checked.last_lt_of_following h
    rw [clearFrom, if_pos ⟨hpos, hle⟩, clearFrom, if_neg (fun e => Nat.not_le.2 hlast e.2)]
    rfl

theorem clearFrom_multiples {limit p : UInt64} (hp : p ≠ 0)
    (hsq : p.toNat * p.toNat ≤ limit.toNat) (flags : Array Bool) :
    clearFrom p.toNat limit.toNat (p.toNat * p.toNat) flags = clearMultiples limit p flags := by
  have hs := toNat_square hsq
  rw [clearMultiples, toNat_multiples hsq, ← hs, clearFrom_eq hp (by omega),
    Checked.foldl_stepped hp (by omega)]

theorem run_eq {limit : UInt64} {s : Sweep} (hs : s.Sound limit) :
    run limit.toNat s.candidate.toNat s.flags =
      ((s.run limit).candidate.toNat, (s.run limit).flags) := by
  fun_induction Sweep.run limit s with
  | case1 s hg ih =>
    have hsq := (goesOn_iff hs.pos).1 hg
    rw [← ih (Sweep.sound_turn hs hg), Sweep.flags_turn, candidate_turn hg, run, if_pos hsq,
      clearFrom_multiples hs.candidate_ne_zero hsq]
  | case2 s hg =>
    rw [goesOn_iff hs.pos] at hg
    rw [run, if_neg hg]

theorem sweep_eq (limit : UInt64) :
    sweep limit.toNat = (((Sweep.start limit).run limit).candidate.toNat,
      ((Sweep.start limit).run limit).flags) :=
  run_eq (Sweep.sound_start limit)

end Unbounded

theorem Sweep.Reached.square_le {limit : UInt64} {s : Sweep} (h : Sweep.Reached limit s) (q : Nat)
    (h2 : 2 ≤ q) (hlt : q < s.candidate.toNat) : q * q ≤ limit.toNat := by
  induction h with
  | start =>
    have hc : (Sweep.start limit).candidate.toNat = 2 := rfl
    omega
  | @turn s hs hg ih =>
    rw [candidate_turn hg] at hlt
    by_cases hq : q < s.candidate.toNat
    · exact ih hq
    · -- the candidate that was passed last went on, so its square was within the limit
      have heq := Nat.le_antisymm (Nat.le_of_lt_succ hlt) (Nat.le_of_not_lt hq)
      rw [heq]
      exact (goesOn_iff hs.sound.pos).1 hg

/-- Once the flags are granted, the checked sieve ends without a fault, with the flags of the sieve
and of the loops over unbounded numbers, at the first candidate whose square is past the limit. At
every head it comes by, the test that divides is the test that multiplies, and behind it the
square, the multiples and the next candidate are what they are in unbounded numbers. -/
theorem sieve_faultless (capacity : Nat) (limit : UInt64) (h : reserve capacity limit = .ok ()) :
    (∃ table last, sieve capacity limit = .ok table ∧ Checked.sweep limit = .ok last ∧
      last.flags = table.flags ∧
      Unbounded.sweep limit.toNat = (last.candidate.toNat, table.flags) ∧
      limit.toNat < last.candidate.toNat * last.candidate.toNat ∧
      ∀ q, 2 ≤ q → q < last.candidate.toNat → q * q ≤ limit.toNat) ∧
    ∀ s, Sweep.Reached limit s →
      s.candidate ≠ 0 ∧
      (s.candidate ≤ limit / s.candidate ↔
        s.candidate.toNat * s.candidate.toNat ≤ limit.toNat) ∧
      Checked.goesOn limit s = .ok (s.goesOn limit) ∧
      (s.candidate ≤ limit / s.candidate →
        Checked.turn limit s = .ok (s.turn limit) ∧
        (s.candidate * s.candidate).toNat = s.candidate.toNat * s.candidate.toNat ∧
        (s.candidate + 1).toNat = s.candidate.toNat + 1 ∧
        ∃ indices, Checked.multiples limit s.candidate = .ok indices ∧
          ∀ m, m ∈ indices ↔ s.candidate.toNat * s.candidate.toNat ≤ m.toNat ∧
            m.toNat ≤ limit.toNat ∧ s.candidate.toNat ∣ m.toNat) := by
  have hw := ((reserve_eq_ok_iff capacity limit).1 h).1
  refine ⟨?_, ?_⟩
  · have hstart : Sweep.Reached limit (Sweep.start limit) := .start
    obtain ⟨hreached, hstop⟩ := hstart.run
    obtain ⟨table, hok, hflags⟩ := sieve_of_reserve h
    refine ⟨table, (Sweep.start limit).run limit, hok, Checked.sweep_eq hw, hflags.symm, ?_,
      hreached.sound.limit_lt_square hstop, hreached.square_le⟩
    rw [Unbounded.sweep_eq, hflags]
  · intro s hreached
    have hs := hreached.sound
    have hp := hs.candidate_ne_zero
    have htest : s.goesOn limit = true ↔ s.candidate ≤ limit / s.candidate := decide_eq_true_iff
    refine ⟨hp, htest.symm.trans (goesOn_iff hs.pos), Checked.goesOn_eq hp, ?_⟩
    intro hle
    have hg := htest.2 hle
    have hsq := (goesOn_iff hs.pos).1 hg
    exact ⟨Checked.turn_eq hs hg, toNat_square hsq, candidate_turn hg,
      Checked.stepped s.candidate limit hp (s.candidate * s.candidate),
      Checked.multiples_eq hp hsq, fun m => Checked.mem_multiples hp hsq⟩

theorem sieve_faultless_ten :
    reserve 11 10 = .ok () ∧ ∃ table last, sieve 11 10 = .ok table ∧
      Checked.sweep 10 = .ok last ∧ last.flags = table.flags ∧ last.candidate.toNat = 4 := by
  have hr : reserve 11 10 = .ok () := by rw [reserve_eq_ok_iff]; decide
  obtain ⟨⟨table, last, hok, hchecked, hflags, -, hpast, hpassed⟩, -⟩ := sieve_faultless 11 10 hr
  refine ⟨hr, table, last, hok, hchecked, hflags, ?_⟩
  have hlimit : (10 : UInt64).toNat = 10 := rfl
  rw [hlimit] at hpast hpassed
  have hlow : 4 ≤ last.candidate.toNat := by
    by_contra hlt
    have := Nat.mul_le_mul (Nat.le_of_lt_succ (Nat.lt_of_not_le hlt))
      (Nat.le_of_lt_succ (Nat.lt_of_not_le hlt))
    omega
  have hhigh : last.candidate.toNat ≤ 4 := by
    by_contra hgt
    have := hpassed 4 (by decide) (Nat.lt_of_not_le hgt)
    omega
  omega

end LeibnizSieve.Sieve
