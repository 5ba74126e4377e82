import LeibnizSieve.Decimal.Layout
import LeibnizSieve.Text.Quoted
import LeibnizSieve.Toml.Value

/-!
Typed readings of document values. A decoder either gives a value of its type or says what is
wrong with the part of the document that it was given.
-/

namespace LeibnizSieve.Config

open Toml

inductive Problem where
  | unknownField (name : String) (expected : List String)
  | unknownVariant (name : String) (expected : List String)
  | invalidType (found : String) (expected : String)
  | notStringOrTable
  | noVariant
  | manyVariants
  | payloadNotTable (found : String)
  | payloadTableNotEmpty
  | payloadTablesNotEmpty
  deriving DecidableEq, Repr

def alternatives (names : List String) : String :=
  " or ".intercalate (names.map fun name => "`" ++ name ++ "`")

def Problem.message : Problem → String
  | .unknownField name expected =>
    "unknown field `" ++ name ++ "`, expected " ++ alternatives expected
  | .unknownVariant name expected =>
    "unknown variant `" ++ name ++ "`, expected " ++ alternatives expected
  | .invalidType found expected => "invalid type: " ++ found ++ ", expected " ++ expected
  | .notStringOrTable => "wanted string or table"
  | .noVariant => "wanted exactly 1 element, found 0 elements"
  | .manyVariants => "wanted exactly 1 element, more than 1 element"
  | .payloadNotTable found => "expected table, found " ++ found
  | .payloadTableNotEmpty => "expected empty table"
  | .payloadTablesNotEmpty => "expected empty array"

structure DecodeError where
  problem : Problem
  span : Option Span
  deriving DecidableEq, Repr

abbrev Decoded := Except DecodeError

def atSpan {α : Type} (span : Option Span) : Decoded α → Decoded α
  | .ok a => .ok a
  | .error e => .error { e with span := e.span.orElse fun _ => span }

def found : Value → String
  | .string _ text => "string " ++ Text.quoted text
  | .integer _ value => "integer `" ++ toString value ++ "`"
  | .float _ value => "floating point `" ++ Decimal.Layout.plain.text value ++ "`"
  | .boolean _ value => "boolean `" ++ toString value ++ "`"
  | .array .. | .tables .. => "sequence"
  | .datetime _ | .table .. => "map"

def kind : Value → String
  | .string .. => "string"
  | .integer .. => "integer"
  | .float .. => "float"
  | .boolean .. => "boolean"
  | .datetime _ => "datetime"
  | .array .. | .tables .. => "array"
  | .table .. => "table"

def wrongType (expected : String) (v : Value) : DecodeError :=
  ⟨.invalidType (found v) expected, v.span?⟩

def boolean : Value → Decoded Bool
  | .boolean _ b => .ok b
  | v => .error (wrongType "a boolean" v)

def string : Value → Decoded String
  | .string _ s => .ok s
  | v => .error (wrongType "a string" v)

abbrev Variants (α : Type) := List (String × α)

def Variants.named {α : Type} (variants : Variants α) (name : String) (span : Option Span) :
    Decoded α :=
  match variants.find? (·.1 = name) with
  | some (_, a) => .ok a
  | none => .error ⟨.unknownVariant name (variants.map (·.1)), span⟩

/-- What may follow the name of a variant in a table: nothing, written as an empty table or as an
empty array. -/
def emptyPayload : Value → Decoded Unit
  | .tables _ [] | .array _ [] | .table _ _ [] => .ok ()
  | .tables span _ => .error ⟨.payloadTablesNotEmpty, span⟩
  | .array span _ => .error ⟨.payloadTableNotEmpty, span⟩
  | .table span _ _ => .error ⟨.payloadTableNotEmpty, span⟩
  | v => .error ⟨.payloadNotTable (kind v), v.span?⟩

def variant {α : Type} (variants : Variants α) : Value → Decoded α
  | .string span name => variants.named name span
  | .table span _ entries =>
    match entries with
    | [] => .error ⟨.noVariant, span⟩
    | [(key, payload)] => do
      let a ← variants.named key.name key.span
      emptyPayload payload
      return a
    | _ => .error ⟨.manyVariants, span⟩
  | v => .error ⟨.notStringOrTable, v.span?⟩

structure Field (α : Type) where
  name : String
  decode : Value → Decoded α
  default : α

structure Section (α : Type) where
  name : String
  shape : String
  field : Field α

/-- The key under which a date shows itself to a section. -/
def dateKey : String := "$__toml_private_datetime"

namespace Section

variable {α : Type}

def unknownKey (s : Section α) (name : String) (span : Option Span) : DecodeError :=
  ⟨.unknownField name [s.field.name], span⟩

def decodeEntries (s : Section α) : α → Entries → Decoded α
  | a, [] => .ok a
  | _, (key, v) :: rest =>
    if key.name = s.field.name then do
      let a ← atSpan (v.span?.getD key.span) (s.field.decode v)
      decodeEntries s a rest
    else .error (s.unknownKey key.name key.span)

/-- A section is a table, or an array whose first element is the field. -/
def decode (s : Section α) : Value → Decoded α
  | .table _ _ entries => s.decodeEntries s.field.default entries
  | .array _ elements | .tables _ elements =>
    match elements with
    | [] => .ok s.field.default
    | first :: _ => atSpan first.span? (s.field.decode first)
  | .datetime span => .error (s.unknownKey dateKey span)
  | v => .error (wrongType ("struct " ++ s.shape) v)

end Section

end LeibnizSieve.Config
