import LeibnizSieve.Text.Utf8

/-!
Which report is asked for, as the value of an environment variable says. A mark in front of a path
names a file, whatever the characters of the path.
-/

namespace LeibnizSieve.Report

open Text

def variableName : String := "COMPUTE_REPORT"

inductive Format where
  | human
  | json
  deriving DecidableEq, Repr

inductive Destination where
  | errorStream
  | file (path : String)
  deriving DecidableEq, Repr

structure Request where
  format : Format
  destination : Destination
  deriving DecidableEq, Repr

structure Unrecognized where
  value : String
  deriving DecidableEq, Repr

def Unrecognized.message (u : Unrecognized) : String :=
  "Warning: " ++ variableName ++ "='" ++ u.value ++ "' not recognized, ignoring"

def filePath? : List Char → Option String
  | 'j' :: 's' :: 'o' :: 'n' :: ':' :: path => some (String.ofList path)
  | _ => none

/-- What a value is answered with: a request, nothing, or a complaint. -/
abbrev Answer := Except Unrecognized (Option Request)

def Request.ofValue (value : String) : Answer :=
  if value = "" ∨ value = "0" then .ok none
  else if value = "1" then .ok (some ⟨.human, .errorStream⟩)
  else if value = "json" then .ok (some ⟨.json, .errorStream⟩)
  else
    match filePath? value.toList with
    | some path => .ok (some ⟨.json, .file path⟩)
    | none => .error ⟨value⟩

/-- A variable that is unset, or whose bytes are no text, asks for nothing. -/
def Request.ofVariable (value : Option Bytes) (read : String → Answer := Request.ofValue) :
    Answer :=
  match value.bind ofUtf8? with
  | some text => read text
  | none => .ok none

@[simp] theorem ofVariable_utf8 (text : String) (read : String → Answer) :
    Request.ofVariable (some (utf8 text)) read = read text := by
  simp [Request.ofVariable]

end LeibnizSieve.Report
