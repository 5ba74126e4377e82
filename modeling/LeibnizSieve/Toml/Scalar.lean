import LeibnizSieve.Decimal.Nearest
import LeibnizSieve.Toml.Quoted

/-!
Numbers and dates. Numbers are 64-bit integers in four bases or floats; dates are only checked,
since nothing asks for their fields.
-/

namespace LeibnizSieve.Toml

/-- Digits with single underscores between them; the underscores are left out. An underscore that
no digit follows spoils the number. -/
def moreDigits (isDigit : Char → Bool) : List Char → Option (List Char × List Char)
  | [] => some ([], [])
  | ['_'] => none
  | '_' :: c :: rest =>
    if isDigit c then (moreDigits isDigit rest).map fun (ds, r) => (c :: ds, r) else none
  | c :: rest =>
    if isDigit c then (moreDigits isDigit rest).map fun (ds, r) => (c :: ds, r)
    else some ([], c :: rest)

def digits? (isDigit : Char → Bool) : List Char → Option (List Char × List Char)
  | [] => none
  | c :: rest =>
    if isDigit c then (moreDigits isDigit rest).map fun (ds, r) => (c :: ds, r) else none

def ofDigits (base : Nat) (digits : List Char) : Nat :=
  digits.foldl (fun n c => base * n + (Text.hexDigit? c).getD 0) 0

def sign : List Char → Bool × List Char
  | '+' :: rest => (false, rest)
  | '-' :: rest => (true, rest)
  | text => (false, text)

def wholeDigits? : List Char → Option (List Char × List Char)
  | '0' :: rest => some (['0'], rest)
  | text => digits? Char.isDigit text

def exponent? : List Char → Option (Int × List Char)
  | c :: rest =>
    if c = 'e' ∨ c = 'E' then
      let (negative, rest) := sign rest
      (digits? Char.isDigit rest).map fun (ds, r) =>
        (if negative then -Int.ofNat (ofDigits 10 ds) else Int.ofNat (ofDigits 10 ds), r)
    else some (0, c :: rest)
  | [] => some (0, [])

inductive Number where
  | integer (value : Int)
  | float (value : Float)

def decimalFloat? (negative : Bool) (whole fraction : List Char) (exponent : Int) :
    Option Float :=
  let reading := Decimal.ofDecimal negative (ofDigits 10 (whole ++ fraction))
    (exponent - Int.ofNat fraction.length)
  if reading = .infinite false then none else some reading.toFloat

def wordInteger? (value : Int) : Option Int :=
  if -2 ^ 63 ≤ value ∧ value < 2 ^ 63 then some value else none

def decimalNumber? (text : List Char) : Option (Number × List Char) := do
  let (negative, rest) := sign text
  let (whole, rest) ← wholeDigits? rest
  match rest with
  | '.' :: rest => do
    let (fraction, rest) ← digits? Char.isDigit rest
    let (exponent, rest) ← exponent? rest
    let value ← decimalFloat? negative whole fraction exponent
    return (.float value, rest)
  | c :: _ =>
    if c = 'e' ∨ c = 'E' then do
      let (exponent, rest) ← exponent? rest
      let value ← decimalFloat? negative whole [] exponent
      return (.float value, rest)
    else do
      let magnitude := Int.ofNat (ofDigits 10 whole)
      let value ← wordInteger? (if negative then -magnitude else magnitude)
      return (.integer value, rest)
  | [] => do
    let magnitude := Int.ofNat (ofDigits 10 whole)
    let value ← wordInteger? (if negative then -magnitude else magnitude)
    return (.integer value, [])

def basedInteger? (base : Nat) (isDigit : Char → Bool) (text : List Char) :
    Option (Number × List Char) := do
  let (ds, rest) ← digits? isDigit text
  let value ← wordInteger? (ofDigits base ds)
  return (.integer value, rest)

def specialFloat? (text : List Char) : Option (Number × List Char) :=
  let (negative, rest) := sign text
  match rest with
  | 'i' :: 'n' :: 'f' :: rest => some (.float (Decimal.Reading.infinite negative).toFloat, rest)
  | 'n' :: 'a' :: 'n' :: rest => some (.float Decimal.Reading.notANumber.toFloat, rest)
  | _ => none

def number? : List Char → Option (Number × List Char)
  | '0' :: 'x' :: rest => basedInteger? 16 (fun c => (Text.hexDigit? c).isSome) rest
  | '0' :: 'o' :: rest => basedInteger? 8 (fun c => '0' ≤ c && c ≤ '7') rest
  | '0' :: 'b' :: rest => basedInteger? 2 (fun c => c = '0' || c = '1') rest
  | text => (specialFloat? text).orElse fun _ => decimalNumber? text

def fixedNumber? (count low high : Nat) (text : List Char) : Option (Nat × List Char) :=
  let ds := text.take count
  let n := ofDigits 10 ds
  if ds.length = count ∧ ds.all Char.isDigit ∧ low ≤ n ∧ n ≤ high then some (n, text.drop count)
  else none

def expect? (c : Char) : List Char → Option (List Char)
  | [] => none
  | d :: rest => if d = c then some rest else none

def daysInMonth (year month : Nat) : Nat :=
  if month = 2 then
    if year % 4 = 0 ∧ (year % 100 ≠ 0 ∨ year % 400 = 0) then 29 else 28
  else if month = 4 ∨ month = 6 ∨ month = 9 ∨ month = 11 then 30
  else 31

def date? (text : List Char) : Option (List Char) := do
  let (year, rest) ← fixedNumber? 4 0 9999 text
  let (month, rest) ← fixedNumber? 2 1 12 (← expect? '-' rest)
  let (_, rest) ← fixedNumber? 2 1 (daysInMonth year month) (← expect? '-' rest)
  return rest

def skipSecondFraction : List Char → List Char
  | '.' :: c :: rest => if c.isDigit then rest.dropWhile Char.isDigit else '.' :: c :: rest
  | text => text

/-- The text after a time of the day, which may be a leap second. -/
def time? (text : List Char) : Option (List Char) := do
  let (_, rest) ← fixedNumber? 2 0 23 text
  let (_, rest) ← fixedNumber? 2 0 59 (← expect? ':' rest)
  let (_, rest) ← fixedNumber? 2 0 60 (← expect? ':' rest)
  return skipSecondFraction rest

def skipOffset (text : List Char) : List Char :=
  match text with
  | 'Z' :: rest | 'z' :: rest => rest
  | c :: rest =>
    if c = '+' ∨ c = '-' then
      (do
        let (_, rest) ← fixedNumber? 2 0 23 rest
        let (_, rest) ← fixedNumber? 2 0 59 (← expect? ':' rest)
        return rest).getD text
    else text
  | [] => text

def datetime? (text : List Char) : Option (List Char) :=
  match date? text with
  | some rest =>
    match rest with
    | c :: after =>
      if c = 'T' ∨ c = 't' ∨ c = ' ' then some (((time? after).map skipOffset).getD rest)
      else some rest
    | [] => some rest
  | none => time? text

end LeibnizSieve.Toml
