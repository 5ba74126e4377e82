import LeibnizSieve.Pattern.Check

/-!
Values that directives ask fields to have. A number is compared as a number, and everything else
is a pattern. A number can always be asked for, also where it is no pattern.
-/

namespace LeibnizSieve.Log

def unsigned : List Char → List Char
  | '+' :: rest => rest
  | '-' :: rest => rest
  | text => text

def isExponent : List Char → Bool
  | [] => true
  | c :: rest =>
    (c = 'e' || c = 'E') && unsigned rest ≠ [] && (unsigned rest).all Char.isDigit

def fraction : List Char → List Char × List Char
  | '.' :: rest => (rest.takeWhile Char.isDigit, rest.dropWhile Char.isDigit)
  | rest => ([], rest)

def isDecimal (text : List Char) : Bool :=
  let (digits, rest) := fraction (text.dropWhile Char.isDigit)
  text.takeWhile Char.isDigit ++ digits ≠ [] && isExponent rest

def isNumber (text : List Char) : Bool :=
  let text := unsigned text
  isDecimal text
    || ["inf", "infinity", "nan"].contains (String.ofList (text.map Char.toLower))

def checkValue (text : List Char) : Except Pattern.Problem Unit :=
  if isNumber text then .ok () else Pattern.check text

end LeibnizSieve.Log
