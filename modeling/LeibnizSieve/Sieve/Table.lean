import LeibnizSieve.Powers

/-!
The sieve of Eratosthenes over one flag per number. A sweep goes through the candidates from two
on and, while the square of the candidate is within the limit, clears the multiples of those
still set. Main statement: a sweep keeps the number of flags.
-/

namespace LeibnizSieve.Sieve

def defaultLimit : UInt64 := 1000000

/-- One flag for each number from zero to the limit, set for the primes. -/
structure PrimeTable where
  flags : Array Bool
  flags_nonempty : 0 < flags.size

namespace PrimeTable

def limit (t : PrimeTable) : Nat :=
  t.flags.size - 1

def isPrime (t : PrimeTable) (n : Nat) : Bool :=
  t.flags.getD n false

def count (t : PrimeTable) : Nat :=
  t.flags.count true

def primes (t : PrimeTable) : List Nat :=
  t.flags.toList.zipIdx.filterMap fun (flag, n) => if flag then some n else none

end PrimeTable

structure Sweep where
  candidate : UInt64
  flags : Array Bool

/-- Clears `count` flags, `step` apart, from `index` on. -/
def clearEvery (step : UInt64) : Nat → UInt64 → Array Bool → Array Bool
  | 0, _, flags => flags
  | count + 1, index, flags =>
    clearEvery step count (index + step) (flags.setIfInBounds index.toNat false)

def clearMultiples (limit p : UInt64) (flags : Array Bool) : Array Bool :=
  clearEvery p (((limit - p * p) / p).toNat + 1) (p * p) flags

def Sweep.start (limit : UInt64) : Sweep where
  candidate := 2
  flags := ((Array.replicate (limit.toNat + 1) true).setIfInBounds 0 false).setIfInBounds 1 false

/-- Whether the outer loop goes on: the square of the candidate is within the limit. The test
divides, so that nothing can wrap. -/
def Sweep.goesOn (limit : UInt64) (s : Sweep) : Bool :=
  s.candidate ≤ limit / s.candidate

def Sweep.turn (limit : UInt64) : Sweep → Sweep
  | ⟨p, flags⟩ =>
    ⟨p + 1, if flags.getD p.toNat false then clearMultiples limit p flags else flags⟩

theorem size_clearEvery (step : UInt64) (count : Nat) (index : UInt64) (flags : Array Bool) :
    (clearEvery step count index flags).size = flags.size := by
  induction count generalizing index flags with
  | zero => rfl
  | succ count ih => simp [clearEvery, ih]

@[simp] theorem size_clearMultiples (limit p : UInt64) (flags : Array Bool) :
    (clearMultiples limit p flags).size = flags.size :=
  size_clearEvery ..

@[simp] theorem size_start (limit : UInt64) :
    (Sweep.start limit).flags.size = limit.toNat + 1 := by
  simp [Sweep.start]

@[simp] theorem size_turn (limit : UInt64) (s : Sweep) :
    (s.turn limit).flags.size = s.flags.size := by
  obtain ⟨p, flags⟩ := s
  dsimp only [Sweep.turn]
  split <;> simp

theorem toNat_add_of_lt {a b : UInt64} (h : a.toNat + b.toNat < 2 ^ 64) :
    (a + b).toNat = a.toNat + b.toNat := by
  rw [UInt64.toNat_add]
  exact Nat.mod_eq_of_lt h

theorem candidate_lt_of_goesOn {limit : UInt64} {s : Sweep} (h : s.goesOn limit = true) :
    s.candidate.toNat ≤ limit.toNat ∧ s.candidate.toNat + 1 < 2 ^ 64 := by
  have hg : s.candidate.toNat ≤ limit.toNat / s.candidate.toNat := by
    simpa [Sweep.goesOn, UInt64.le_iff_toNat_le, UInt64.toNat_div] using h
  have hl := UInt64.toNat_lt limit
  refine ⟨Nat.le_trans hg (Nat.div_le_self ..), ?_⟩
  by_cases h2 : 2 ≤ s.candidate.toNat
  · have : limit.toNat / s.candidate.toNat ≤ limit.toNat / 2 :=
      Nat.div_le_div_left h2 (by decide)
    omega
  · omega

theorem candidate_turn {limit : UInt64} {s : Sweep} (h : s.goesOn limit = true) :
    (s.turn limit).candidate.toNat = s.candidate.toNat + 1 := by
  have hw := (candidate_lt_of_goesOn h).2
  exact toNat_add_of_lt (b := 1) hw

def Sweep.run (limit : UInt64) (s : Sweep) : Sweep :=
  if _h : s.goesOn limit = true then (s.turn limit).run limit else s
termination_by limit.toNat + 1 - s.candidate.toNat
decreasing_by
  have := candidate_turn _h
  have := candidate_lt_of_goesOn _h
  omega

theorem size_run (limit : UInt64) (s : Sweep) : (s.run limit).flags.size = s.flags.size := by
  fun_induction Sweep.run limit s with
  | case1 s h ih => rw [ih, size_turn]
  | case2 => rfl

inductive SieveError where
  | allocation (requested : UInt64)
  deriving DecidableEq, Repr

def SieveError.message : SieveError → String
  | .allocation requested =>
    "failed to allocate presence array of " ++ toString requested ++ " slots"

/-- Asks for one slot per number up to the limit, from a memory that holds `capacity` slots. A
limit whose successor is no word counts as a request for the largest word. -/
def reserve (capacity : Nat) (limit : UInt64) : Except SieveError Unit :=
  if limit.toNat + 1 = 2 ^ 64 then .error (.allocation limit)
  else if limit.toNat + 1 ≤ capacity then .ok ()
  else .error (.allocation (limit + 1))

theorem reserve_eq_ok_iff (capacity : Nat) (limit : UInt64) :
    reserve capacity limit = .ok () ↔
      limit.toNat + 1 < 2 ^ 64 ∧ limit.toNat + 1 ≤ capacity := by
  have hl := limit.toNat_lt
  unfold reserve
  split
  · simp
    omega
  · split <;> simp <;> omega

def sieve (capacity : Nat) (limit : UInt64) : Except SieveError PrimeTable := do
  reserve capacity limit
  return {
    flags := ((Sweep.start limit).run limit).flags
    flags_nonempty := by simp [size_run] }

theorem sieve_of_reserve {capacity : Nat} {limit : UInt64} (h : reserve capacity limit = .ok ()) :
    ∃ table, sieve capacity limit = .ok table ∧
      table.flags = ((Sweep.start limit).run limit).flags := by
  refine ⟨⟨((Sweep.start limit).run limit).flags, by simp [size_run]⟩, ?_, rfl⟩
  rw [sieve, h]
  rfl

theorem sieve_of_refusal {capacity : Nat} {limit : UInt64} {e : SieveError}
    (h : reserve capacity limit = .error e) : sieve capacity limit = .error e := by
  rw [sieve, h]
  rfl

def compute (capacity : Nat) (limit : UInt64) : Except SieveError Unit := do
  let _ ← sieve capacity limit

end LeibnizSieve.Sieve
