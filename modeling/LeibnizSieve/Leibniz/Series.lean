import LeibnizSieve.Decimal.Fixed

/-!
The Leibniz series for pi, summed in binary64 from the first term on. The loop forms its
denominators in 64-bit words; `term` forms them in binary64, where they cannot wrap.
-/

namespace LeibnizSieve.Leibniz

def defaultIterations : UInt64 := 1000000

structure PartialSum where
  sum : Float
  subtracts : Bool

namespace PartialSum

def start : PartialSum := ⟨0.0, false⟩

/-- Adds the summand at index `i`. The denominator is a word before it is a float. -/
def next (s : PartialSum) (i : UInt64) : PartialSum where
  sum := s.sum + (if s.subtracts then -1.0 else 1.0) * 4.0 / (2 * i + 1).toFloat
  subtracts := !s.subtracts

def ofCount (count : Nat) : PartialSum :=
  count.fold (fun i _ s => s.next (UInt64.ofNat i)) start

@[simp] theorem ofCount_zero : ofCount 0 = start := rfl

theorem ofCount_succ (count : Nat) :
    ofCount (count + 1) = (ofCount count).next (UInt64.ofNat count) := by
  simp [ofCount]

theorem subtracts_ofCount (count : Nat) :
    (ofCount count).subtracts = decide (count % 2 = 1) := by
  induction count with
  | zero => rfl
  | succ count ih =>
    rw [ofCount_succ]
    simp only [next, ih]
    rcases Nat.mod_two_eq_zero_or_one count with h | h <;> simp [Nat.add_mod, h]

end PartialSum

def leibnizPi (iterations : UInt64) : Float :=
  (PartialSum.ofCount iterations.toNat).sum

/-- The contribution of index `i`. The index is rounded to a float before it is doubled. -/
def term (i : UInt64) : Float :=
  let sign := if i % 2 = 0 then 1.0 else -1.0
  sign * 4.0 / (2.0 * i.toFloat + 1.0)

def resultLine (value : Float) : String :=
  "Computed value of Pi: " ++ Decimal.fixedText 15 value

/-- Shown before the result for those who expect a question; nothing is read after it. -/
def prompt : String := "Enter the number of iterations: "

end LeibnizSieve.Leibniz
