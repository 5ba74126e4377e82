import LeibnizSieve.Log.Level
import LeibnizSieve.Text.Utf8

/-!
Log events and the line that shows one, plain or with the marks of a terminal.
-/

namespace LeibnizSieve.Log

open Text

structure Event where
  level : Level
  target : String
  message : String
  fields : List (String × String)
  deriving DecidableEq, Repr

def Event.fieldNames (e : Event) : List String :=
  "message" :: e.fields.map (·.1)

def Level.label : Level → String
  | off => "  OFF"
  | error => "ERROR"
  | warn => " WARN"
  | info => " INFO"
  | debug => "DEBUG"
  | trace => "TRACE"

def Level.colour : Level → String
  | off => "0"
  | error => "31"
  | warn => "33"
  | info => "32"
  | debug => "34"
  | trace => "35"

/-- How log lines look: the time they show, and whether they are coloured. -/
structure Look where
  stamp : String
  coloured : Bool
  deriving DecidableEq, Repr

/-- Lines are coloured unless a variable holds a text, and one that is not empty. -/
def wantsColour (value : Option Bytes) : Bool :=
  match value.bind ofUtf8? with
  | some text => text = ""
  | none => true

namespace Look

variable (l : Look)

def paint (style text : String) : String :=
  if l.coloured then "\x1b[" ++ style ++ "m" ++ text ++ "\x1b[0m" else text

def dimmed (text : String) : String := l.paint "2" text

def italic (text : String) : String := l.paint "3" text

end Look

def Event.line (l : Look) (e : Event) : String :=
  l.dimmed l.stamp ++ " " ++ l.paint e.level.colour e.level.label ++ " " ++ l.dimmed e.target
    ++ l.dimmed ":" ++ " " ++ e.message
    ++ String.join (e.fields.map fun (name, value) =>
        " " ++ l.italic name ++ l.dimmed "=" ++ value)
    ++ "\n"

end LeibnizSieve.Log
