import LeibnizSieve.Powers

/-!
What a binary64 word denotes: a signed multiple of a power of two, an infinity, or nothing.
All text of numbers starts here, so no printed digit depends on a floating point operation.
-/

namespace LeibnizSieve.Decimal

/-- A finite reading stands for `significand * 2 ^ exponent`, negated when `negative`. -/
inductive Reading where
  | notANumber
  | infinite (negative : Bool)
  | finite (negative : Bool) (significand : Nat) (exponent : Int)
  deriving DecidableEq, Repr

namespace Reading

/-- The word split into sign, biased exponent and fraction. A biased exponent of zero has no
hidden bit and shares the scale of a biased exponent of one. -/
def ofWord (word : Nat) : Reading :=
  let negative := decide (word / 2 ^ 63 % 2 = 1)
  let biased := word / 2 ^ 52 % 2 ^ 11
  let fraction := word % 2 ^ 52
  if biased = 2047 then
    if fraction = 0 then infinite negative else notANumber
  else if biased = 0 then
    finite negative fraction (-1074)
  else
    finite negative (2 ^ 52 + fraction) (Int.ofNat biased - 1075)

def ofFloat (x : Float) : Reading :=
  ofWord x.toBits.toNat

def isFinite : Reading → Bool
  | finite .. => true
  | _ => false

end Reading

end LeibnizSieve.Decimal
