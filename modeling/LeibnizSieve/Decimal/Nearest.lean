import LeibnizSieve.Decimal.Reading
import LeibnizSieve.Decimal.Rounding

/-!
The binary64 number nearest to a quotient, ties to even; what is too large becomes infinite.
-/

namespace LeibnizSieve.Decimal

def binaryExponent (num den : Nat) : Int :=
  let guess : Int := Int.ofNat num.log2 - Int.ofNat den.log2
  if num * 2 ^ (-guess).toNat < den * 2 ^ guess.toNat then guess - 1 else guess

def nearestFinite? (num den : Nat) : Option (Nat × Int) :=
  if num = 0 then some (0, -1074)
  else
    let exponent := max (-1074) (binaryExponent num den - 52)
    let significand := roundHalfEven (num * 2 ^ (-exponent).toNat) (den * 2 ^ exponent.toNat)
    let (significand, exponent) :=
      if significand = 2 ^ 53 then (2 ^ 52, exponent + 1) else (significand, exponent)
    if 971 < exponent then none else some (significand, exponent)

def nearest (negative : Bool) (num den : Nat) : Reading :=
  match nearestFinite? num den with
  | some (significand, exponent) => .finite negative significand exponent
  | none => .infinite negative

def Reading.toWord : Reading → Nat
  | .notANumber => 0x7ff8000000000000
  | .infinite negative => (if negative then 2 ^ 63 else 0) + 2047 * 2 ^ 52
  | .finite negative significand exponent =>
    (if negative then 2 ^ 63 else 0)
      + (if significand < 2 ^ 52 then significand
        else (exponent + 1075).toNat * 2 ^ 52 + (significand - 2 ^ 52))

def Reading.toFloat (r : Reading) : Float :=
  Float.ofBits (UInt64.ofNat r.toWord)

/-- The number nearest to `coefficient * 10 ^ exponent`. Powers of ten past every binary64 number
are not formed. -/
def ofDecimal (negative : Bool) (coefficient : Nat) (exponent : Int) : Reading :=
  let leading := exponent + (Nat.toDigits 10 coefficient).length
  if coefficient = 0 ∨ leading < -330 then .finite negative 0 (-1074)
  else if 310 < leading then .infinite negative
  else nearest negative (coefficient * 10 ^ exponent.toNat) (10 ^ (-exponent).toNat)

end LeibnizSieve.Decimal
