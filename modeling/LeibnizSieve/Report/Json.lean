import LeibnizSieve.Decimal.Layout

/-!
Flat JSON objects on one line, without blanks.
-/

namespace LeibnizSieve.Report

/-- A value of a field. Words are written as they are, so they hold nothing JSON escapes. -/
inductive JsonValue where
  | natural (n : Nat)
  | float (x : Float)
  | word (text : String)

def JsonValue.text : JsonValue → String
  | .natural n => toString n
  | .float x => Decimal.Layout.json.text x
  | .word text => "\"" ++ text ++ "\""

def jsonField (name : String) (value : JsonValue) : String :=
  "\"" ++ name ++ "\":" ++ value.text

def jsonObject (fields : List (String × JsonValue)) : String :=
  "\x7b" ++ ",".intercalate (fields.map fun (name, value) => jsonField name value) ++ "\x7d"

end LeibnizSieve.Report
