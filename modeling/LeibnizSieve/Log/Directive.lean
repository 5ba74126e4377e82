import LeibnizSieve.Log.FieldValue
import LeibnizSieve.Log.Level

/-!
Filter directives such as `target=level` or `target[span\{field\}]=level`. The scanner goes over
the text without the blanks at its ends. The pieces it finds are cut out of the whole text at
the offsets found, so blanks in front shift every piece and blanks behind stay in the last one.
An offset that falls inside a character of the whole text stops the program.
-/

namespace LeibnizSieve.Log

open Text

structure FieldMatch where
  name : String
  valued : Bool
  deriving DecidableEq, Repr

structure Directive where
  level : Level
  target : Option String
  span : Option String
  fields : List FieldMatch
  deriving DecidableEq, Repr

inductive DirectiveError where
  | malformed
  | badLevel
  /-- A field is asked for a value that cannot be a pattern. -/
  | badField (problem : Pattern.Problem)
  deriving DecidableEq, Repr

def DirectiveError.message : DirectiveError → String
  | .malformed => "invalid filter directive"
  | .badLevel =>
    "error parsing level filter: expected one of \"off\", \"error\", \"warn\", \"info\", "
      ++ "\"debug\", \"trace\", or a number 0-5"
  | .badField problem => "invalid field filter: " ++ problem.message

/-- How a scan ends without a directive: the text is refused, or the program is stopped. -/
inductive Fault where
  | refused (e : DirectiveError)
  | stopped
  deriving DecidableEq, Repr

abbrev Scanned := Except Fault

/-- Where the scanner is; the numbers are byte offsets of the start of the piece it is in. -/
inductive ScanState where
  | start
  | levelOrTarget (start : Nat)
  | span (start : Nat)
  | field (start : Nat)
  | fields
  | target
  | level (start : Nat)
  | complete
  deriving DecidableEq, Repr

namespace Directive

def everything : Directive := ⟨.trace, none, none, []⟩

/-- A text cut at a byte offset, if that is between two characters or at an end. -/
def cut? (text : List Char) (offset : Nat) : Option (List Char × List Char) :=
  match offset, text with
  | 0, text => some ([], text)
  | _ + 1, [] => none
  | offset + 1, c :: rest =>
    if c.utf8Size ≤ offset + 1 then
      (cut? rest (offset + 1 - c.utf8Size)).map fun (before, after) => (c :: before, after)
    else none

def orStopped {α : Type} : Option α → Scanned α
  | some a => .ok a
  | none => .error .stopped

def refuse {α : Type} (e : DirectiveError) : Scanned α :=
  .error (.refused e)

def tail (text : List Char) (start : Nat) : Scanned (List Char) := do
  let (_, after) ← orStopped (cut? text start)
  return after

def piece (text : List Char) (start stop : Nat) : Scanned (List Char) := do
  let after ← tail text start
  let (between, _) ← orStopped (cut? after (stop - start))
  return between

/-- The level of a directive with a target: nothing after the equals sign means everything. -/
def levelOf (text : List Char) : Scanned Level :=
  if text = [] then .ok .trace
  else
    match Level.ofText? text with
    | some level => .ok level
    | none => refuse .badLevel

def withLevelOrTarget (d : Directive) (text : List Char) : Directive :=
  if text = [] then { d with level := .trace, target := none }
  else
    match Level.ofText? text with
    | some level => { d with level, target := none }
    | none => { d with level := .trace, target := some (String.ofList text) }

def fieldOf (text : List Char) : Scanned FieldMatch :=
  let name := String.ofList (text.takeWhile (· ≠ '='))
  match text.dropWhile (· ≠ '=') with
  | [] => .ok ⟨name, false⟩
  | _ :: value =>
    match checkValue (value.takeWhile (· ≠ '=')) with
    | .ok () => .ok ⟨name, true⟩
    | .error problem => refuse (.badField problem)

def withField (d : Directive) (text : List Char) : Scanned Directive :=
  if text = [] then refuse .malformed
  else do return { d with fields := d.fields ++ [← fieldOf text] }

/-- One character, which starts at byte offset `offset`. -/
def scanChar (text : List Char) (d : Directive) (state : ScanState) (offset : Nat) (c : Char) :
    Scanned (Directive × ScanState) :=
  match state with
  | .start =>
    if c = '[' then .ok (d, .span (offset + 1))
    else if c = '-' ∨ c = ':' ∨ c = '_' ∨ isAlphanumeric c then .ok (d, .levelOrTarget offset)
    else refuse .malformed
  | .levelOrTarget start =>
    if c = '=' then do
      return ({ d with target := some (String.ofList (← piece text start offset)) },
        .level (offset + 1))
    else if c = '[' then do
      return ({ d with target := some (String.ofList (← piece text start offset)) },
        .span (offset + 1))
    else if c = ',' then do return (d.withLevelOrTarget (← tail text start), .complete)
    else .ok (d, state)
  | .target => if c = '=' then .ok (d, .level (offset + 1)) else refuse .malformed
  | .span start =>
    if c = ']' then do
      return ({ d with span := some (String.ofList (← piece text start offset)) }, .target)
    else if c = '\x7b' then do
      let name ← piece text start offset
      return ({ d with span := if name = [] then none else some (String.ofList name) },
        .field (offset + 1))
    else .ok (d, state)
  | .field start =>
    if c = '\x7d' then do return (← d.withField (← piece text start offset), .fields)
    else if c = ',' then do
      return (← d.withField (← piece text start offset), .field (offset + 1))
    else .ok (d, state)
  | .fields => if c = ']' then .ok (d, .target) else refuse .malformed
  | .level start =>
    if c = ',' then do
      return ({ d with level := ← levelOf (← piece text start offset) }, .complete)
    else .ok (d, state)
  | .complete => refuse .malformed

def scan (text : List Char) (d : Directive) (state : ScanState) (offset : Nat) :
    List Char → Scanned (Directive × ScanState)
  | [] => .ok (d, state)
  | c :: rest => do
    let (d, state) ← scanChar text d state offset c
    scan text d state (offset + c.utf8Size) rest

def finish (text : List Char) (d : Directive) : ScanState → Scanned Directive
  | .levelOrTarget start => do return d.withLevelOrTarget (← tail text start)
  | .level start => do return { d with level := ← levelOf (← tail text start) }
  | .target | .complete => .ok d
  | .start | .span _ | .field _ | .fields => refuse .malformed

def parse (text : List Char) : Scanned Directive := do
  let (d, state) ← scan text everything .start 0 (trimBlanks text)
  finish text d state

def render (d : Directive) : String :=
  let fields := ", ".intercalate (d.fields.map (·.name))
  let inner := if d.span.isNone ∧ d.fields.isEmpty then ""
    else "[" ++ d.span.getD "" ++ (if d.fields.isEmpty then "" else "\x7b" ++ fields ++ "\x7d")
      ++ "]"
  let place := d.target.getD "" ++ inner
  (if place = "" then "" else place ++ "=") ++ d.level.name

/-- A directive that asks for a span or for fields says nothing about events on its own. -/
def isDynamic (d : Directive) : Bool :=
  d.span.isSome || !d.fields.isEmpty

def isStatic (d : Directive) : Bool :=
  d.span.isNone && d.fields.all (!·.valued)

end Directive

end LeibnizSieve.Log
