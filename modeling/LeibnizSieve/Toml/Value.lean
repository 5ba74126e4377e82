/-!
Documents as trees. Every part remembers where it was written; a place in a text is the rest of
the text from there on, so that positions are counted only when they are shown.
-/

namespace LeibnizSieve.Toml

/-- A stretch of a text: what remains at its start, and what remains after it. -/
structure Span where
  start : List Char
  stop : List Char
  deriving DecidableEq, Repr

def Span.to (first last : Span) : Span := ⟨first.start, last.stop⟩

structure Key where
  name : String
  span : Span
  deriving DecidableEq, Repr

inductive TableForm where
  | inline
  | header
  | implied
  | dotted
  deriving DecidableEq, Repr

/-- A value of a document. Tables that no stretch of text is about have no span. -/
inductive Value where
  | string (span : Span) (text : String)
  | integer (span : Span) (value : Int)
  | float (span : Span) (value : Float)
  | boolean (span : Span) (value : Bool)
  | datetime (span : Span)
  | array (span : Span) (elements : List Value)
  /-- Tables under repeated double headers. -/
  | tables (span : Span) (elements : List Value)
  | table (span : Option Span) (form : TableForm) (entries : List (Key × Value))

abbrev Entries := List (Key × Value)

def Value.span? : Value → Option Span
  | string span _ | integer span _ | float span _ | boolean span _ | datetime span
  | array span _ | tables span _ => some span
  | table span _ _ => span

namespace Entries

def find? (entries : Entries) (name : String) : Option Value :=
  (List.find? (fun e => e.1.name = name) entries).map (·.2)

def set (entries : Entries) (name : String) (value : Value) : Entries :=
  entries.map fun e => if e.1.name = name then (e.1, value) else e

def erase (entries : Entries) (name : String) : Entries :=
  entries.filter fun e => e.1.name ≠ name

@[simp] theorem find_nil (name : String) : find? [] name = none := rfl

end Entries

end LeibnizSieve.Toml
