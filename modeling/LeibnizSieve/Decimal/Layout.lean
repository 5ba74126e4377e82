import LeibnizSieve.Decimal.Shortest

/-!
Layouts of the shortest digits. A layout says for which sizes a number is written with a point
in place, how an exponent looks, and what stands for the values that have no digits.
-/

namespace LeibnizSieve.Decimal

structure Layout where
  tie : TieRule
  /-- The decimal exponents of the leading digit that are written without an exponent. -/
  positional : Int → Bool
  /-- Whether a whole number written without an exponent ends in `.0`. -/
  pointZero : Bool
  plus : String
  notANumber : String
  infinite : Bool → String

/-- Digits with the point after the first `whole` of them; zeros fill what is missing. -/
def positionalText (pointZero : Bool) (digits : List Char) (whole : Int) : String :=
  if whole ≤ 0 then
    "0." ++ String.ofList (List.replicate (-whole).toNat '0' ++ digits)
  else if digits.length ≤ whole.toNat then
    String.ofList (digits ++ List.replicate (whole.toNat - digits.length) '0')
      ++ (if pointZero then ".0" else "")
  else
    String.ofList (digits.take whole.toNat) ++ "." ++ String.ofList (digits.drop whole.toNat)

def exponentText (plus : String) (digits : List Char) (leading : Int) : String :=
  let mantissa := String.ofList (digits.take 1)
    ++ (if digits.length ≤ 1 then "" else "." ++ String.ofList (digits.drop 1))
  mantissa ++ "e" ++ (if 0 ≤ leading then plus else "-") ++ toString leading.natAbs

def Layout.digitsText (l : Layout) (d : Digits) : String :=
  let digits := Nat.toDigits 10 d.coefficient
  let leading := d.exponent + digits.length - 1
  if l.positional leading then positionalText l.pointZero digits (leading + 1)
  else exponentText l.plus digits leading

def Layout.readingText (l : Layout) : Reading → String
  | .notANumber => l.notANumber
  | .infinite negative => l.infinite negative
  | .finite negative significand exponent =>
    (if negative then "-" else "") ++ l.digitsText (shortest l.tie significand exponent)

def Layout.text (l : Layout) (x : Float) : String :=
  l.readingText (Reading.ofFloat x)

/-- Leading exponents from -5 to 15: the sizes from `1e-5` up to, not including, `1e16`. -/
def moderate (leading : Int) : Bool :=
  -5 ≤ leading && leading < 16

def Layout.scientific : Layout where
  tie := .upward
  positional _ := false
  pointZero := false
  plus := ""
  notANumber := "NaN"
  infinite negative := if negative then "-inf" else "inf"

def Layout.plain : Layout where
  tie := .upward
  positional _ := true
  pointZero := true
  plus := ""
  notANumber := "NaN"
  infinite negative := if negative then "-inf" else "inf"

def Layout.mixed : Layout :=
  { Layout.plain with positional := moderate }

/-- A number of a JSON text; what JSON cannot write is `null`. -/
def Layout.json : Layout where
  tie := .toEven
  positional := moderate
  pointZero := true
  plus := "+"
  notANumber := "null"
  infinite _ := "null"

end LeibnizSieve.Decimal
