import LeibnizSieve.Decimal.Reading

/-!
The shortest decimal that reads back. A finite nonzero number owns the interval of reals that
round to it. Decimal grids are tried from coarse to fine; the first grid with a point in that
interval gives the digits, and of two such points the one nearer to the number is taken.
-/

namespace LeibnizSieve.Decimal

/-- The decimal `coefficient * 10 ^ exponent`. -/
structure Digits where
  coefficient : Nat
  exponent : Int
  deriving DecidableEq, Repr

inductive TieRule where
  | toEven
  | upward
  deriving DecidableEq, Repr

/-- The interval of reals that round to `value / scale`, over the common divisor `scale`. The
ends belong to it when the significand is even. -/
structure Interval where
  low : Nat
  value : Nat
  high : Nat
  scale : Nat
  closed : Bool
  deriving DecidableEq, Repr

namespace Interval

/-- Below a power of two the next smaller number is only half as far away, unless both are
subnormal. -/
def ofFinite (significand : Nat) (exponent : Int) : Interval :=
  let up := 2 ^ (exponent - 2).toNat
  let below := if significand = 2 ^ 52 ∧ exponent ≠ -1074 then 1 else 2
  { low := (4 * significand - below) * up
    value := 4 * significand * up
    high := (4 * significand + 2) * up
    scale := 2 ^ (2 - exponent).toNat
    closed := significand % 2 = 0 }

def contains (i : Interval) (d : Digits) : Bool :=
  let point := d.coefficient * 10 ^ d.exponent.toNat * i.scale
  let grid := 10 ^ (-d.exponent).toNat
  if i.closed then i.low * grid ≤ point && point ≤ i.high * grid
  else i.low * grid < point && point < i.high * grid

def floorPoint (i : Interval) (exponent : Int) : Digits where
  coefficient := i.value * 10 ^ (-exponent).toNat / (i.scale * 10 ^ exponent.toNat)
  exponent

def compareHalf (i : Interval) (exponent : Int) : Ordering :=
  let step := i.scale * 10 ^ exponent.toNat
  compare (2 * (i.value * 10 ^ (-exponent).toNat % step)) step

def pointOn? (tie : TieRule) (i : Interval) (exponent : Int) : Option Digits :=
  let below := i.floorPoint exponent
  let above := { below with coefficient := below.coefficient + 1 }
  match below.coefficient ≠ 0 && i.contains below, i.contains above with
  | true, true =>
    match i.compareHalf exponent with
    | .lt => some below
    | .gt => some above
    | .eq =>
      match tie with
      | .upward => some above
      | .toEven => if below.coefficient % 2 = 0 then some below else some above
  | true, false => some below
  | false, true => some above
  | false, false => none

def firstPoint (tie : TieRule) (i : Interval) : Nat → Int → Digits
  | 0, exponent => i.floorPoint exponent
  | count + 1, exponent => (i.pointOn? tie exponent).getD (firstPoint tie i count (exponent - 1))

/-- An exponent with `10 ^ topExponent` above the number and at most ten times as large. -/
def topExponent (i : Interval) : Int :=
  if i.scale ≤ i.value then (Nat.toDigits 10 (i.value / i.scale)).length
  else 1 - (Nat.toDigits 10 ((i.scale - 1) / i.value)).length

end Interval

/-- Seventeen digits always suffice, so eighteen grids are tried. -/
def shortest (tie : TieRule) (significand : Nat) (exponent : Int) : Digits :=
  if significand = 0 then ⟨0, 0⟩
  else
    let i := Interval.ofFinite significand exponent
    i.firstPoint tie 18 i.topExponent

theorem shortest_zero (tie : TieRule) (exponent : Int) : shortest tie 0 exponent = ⟨0, 0⟩ := rfl

end LeibnizSieve.Decimal
