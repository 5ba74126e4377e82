/-!
Time that a run took.
-/

namespace LeibnizSieve.Report

structure Elapsed where
  seconds : UInt64
  nanoseconds : UInt32
  deriving DecidableEq, Repr

/-- Whole milliseconds; they need not fit into a word. -/
def Elapsed.milliseconds (e : Elapsed) : Nat :=
  e.seconds.toNat * 1000 + e.nanoseconds.toNat / 1000000

end LeibnizSieve.Report
