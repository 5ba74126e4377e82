import LeibnizSieve.Decimal.Reading
import LeibnizSieve.Decimal.Rounding

/-!
Numbers with a fixed count of decimal places. The exact binary value is rounded once, to the
nearest multiple of the last place, ties to even; an exponent is never written.
-/

namespace LeibnizSieve.Decimal

def fixedUnits (places significand : Nat) (exponent : Int) : Nat :=
  roundHalfEven (significand * 2 ^ exponent.toNat * 10 ^ places) (2 ^ (-exponent).toNat)

def paddedDigits (width n : Nat) : List Char :=
  let digits := Nat.toDigits 10 n
  List.replicate (width - digits.length) '0' ++ digits

def unitsText (places units : Nat) : String :=
  String.ofList (Nat.toDigits 10 (units / 10 ^ places)) ++ "."
    ++ String.ofList (paddedDigits places (units % 10 ^ places))

/-- A sign is kept for negative numbers that round to zero and for the negative zero. -/
def Reading.fixedText (places : Nat) : Reading → String
  | .notANumber => "NaN"
  | .infinite negative => if negative then "-inf" else "inf"
  | .finite negative significand exponent =>
    (if negative then "-" else "") ++ unitsText places (fixedUnits places significand exponent)

def fixedText (places : Nat) (x : Float) : String :=
  (Reading.ofFloat x).fixedText places

theorem length_paddedDigits (width n : Nat) (h : (Nat.toDigits 10 n).length ≤ width) :
    (paddedDigits width n).length = width := by
  simp [paddedDigits]
  omega

end LeibnizSieve.Decimal
