/-!
Log levels and their spellings. Main statement: the name of a level reads back as that level.
-/

namespace LeibnizSieve.Log

inductive Level where
  | off
  | error
  | warn
  | info
  | debug
  | trace
  deriving DecidableEq, Repr

namespace Level

def rank : Level → Nat
  | off => 0
  | error => 1
  | warn => 2
  | info => 3
  | debug => 4
  | trace => 5

def ofRank? : Nat → Option Level
  | 0 => some off
  | 1 => some error
  | 2 => some warn
  | 3 => some info
  | 4 => some debug
  | 5 => some trace
  | _ => none

def name : Level → String
  | off => "off"
  | error => "error"
  | warn => "warn"
  | info => "info"
  | debug => "debug"
  | trace => "trace"

def admits (filter event : Level) : Bool :=
  event.rank ≤ filter.rank

def number? (text : List Char) : Option Nat :=
  let digits := match text with
    | '+' :: rest => rest
    | _ => text
  if digits ≠ [] ∧ digits.all Char.isDigit then
    some (digits.foldl (fun n c => 10 * n + (c.toNat - '0'.toNat)) 0)
  else none

def ofName? (text : List Char) : Option Level :=
  match String.ofList (text.map Char.toLower) with
  | "off" => some off
  | "error" => some error
  | "warn" => some warn
  | "info" => some info
  | "debug" => some debug
  | "trace" => some trace
  | _ => none

/-- A number from 0 to 5, a name, or nothing at all, which means errors only. -/
def ofText? (text : List Char) : Option Level :=
  match (number? text).bind ofRank? with
  | some level => some level
  | none => if text = [] then some error else ofName? text

@[simp] theorem ofRank_rank (level : Level) : ofRank? level.rank = some level := by
  cases level <;> rfl

@[simp] theorem ofText_name (level : Level) : ofText? level.name.toList = some level := by
  cases level <;> decide

end Level

end LeibnizSieve.Log
