import LeibnizSieve.Toml.Scalar
import LeibnizSieve.Toml.Table

/-!
The statements of a document: assignments and the headers between them. Values nest at most
eighty deep, and keys have fewer than eighty parts.
-/

namespace LeibnizSieve.Toml

inductive Statement where
  | assignment (a : Assignment)
  | header (path : List Key) (key : Key) (span : Span)
  | repeatedHeader (path : List Key) (key : Key) (span : Span)

def isBareKeyChar (c : Char) : Bool :=
  c.isAlphanum || c = '-' || c = '_'

def keyPart? (text : List Char) : Option (Key × List Char) :=
  match text with
  | '"' :: _ | '\'' :: _ => (lineText? text).map fun (name, rest) => (⟨name, ⟨text, rest⟩⟩, rest)
  | _ =>
    let name := text.takeWhile isBareKeyChar
    let rest := text.dropWhile isBareKeyChar
    if name = [] then none else some (⟨String.ofList name, ⟨text, rest⟩⟩, rest)

def keyParts : Nat → List Char → Option ((List Key × Key) × List Char)
  | 0, _ => none
  | bound + 1, text => do
    let (key, rest) ← keyPart? (skipBlanks text)
    match skipBlanks rest with
    | '.' :: rest => do
      let ((path, last), rest) ← keyParts bound rest
      return ((key :: path, last), rest)
    | rest => return (([], key), rest)

/-- A key of at most 79 parts. -/
def key? (text : List Char) : Option ((List Key × Key) × List Char) :=
  keyParts 79 text

def assignment? (value : List Char → Option (Value × List Char)) (text : List Char) :
    Option (Assignment × List Char) := do
  let ((path, key), rest) ← key? text
  let rest ← expect? '=' rest
  let (value, rest) ← value (skipBlanks rest)
  return (⟨path, key, value⟩, skipBlanks rest)

def elements (value : List Char → Option (Value × List Char)) :
    Nat → List Char → Option (List Value × List Char)
  | 0, _ => none
  | bound + 1, text =>
    match skipLayout text with
    | ']' :: rest => some ([], rest)
    | text => do
      let (first, rest) ← value text
      match skipLayout rest with
      | ',' :: rest => do
        let (others, rest) ← elements value bound rest
        return (first :: others, rest)
      | ']' :: rest => return ([first], rest)
      | _ => none

def inlineAssignments (value : List Char → Option (Value × List Char)) :
    Nat → List Char → Option (List Assignment × List Char)
  | 0, _ => none
  | bound + 1, text => do
    let (first, rest) ← assignment? value text
    match rest with
    | ',' :: rest => do
      let (others, rest) ← inlineAssignments value bound rest
      return (first :: others, rest)
    | '\x7d' :: rest => return ([first], rest)
    | _ => none

def inlineEntries? (value : List Char → Option (Value × List Char)) (text : List Char) :
    Option (Entries × List Char) :=
  match skipBlanks text with
  | '\x7d' :: rest => some ([], rest)
  | _ => do
    let (assignments, rest) ← inlineAssignments value (text.length + 1) text
    let entries ← Entries.assignAll [] assignments
    return (entries, rest)

/-- A value that nests less than `depth` deep. -/
def value? : Nat → List Char → Option (Value × List Char)
  | 0, _ => none
  | depth + 1, text =>
    match text with
    | '"' :: _ | '\'' :: _ => do
      let (s, rest) ← quotedText? text
      return (.string ⟨text, rest⟩ s, rest)
    | '[' :: inner => do
      let (vs, rest) ← elements (value? depth) (inner.length + 1) inner
      return (.array ⟨text, rest⟩ vs, rest)
    | '\x7b' :: inner => do
      let (entries, rest) ← inlineEntries? (value? depth) inner
      return (.table (some ⟨text, rest⟩) .inline entries, rest)
    | 't' :: 'r' :: 'u' :: 'e' :: rest => some (.boolean ⟨text, rest⟩ true, rest)
    | 'f' :: 'a' :: 'l' :: 's' :: 'e' :: rest => some (.boolean ⟨text, rest⟩ false, rest)
    | _ =>
      match datetime? text with
      | some rest => some (.datetime ⟨text, rest⟩, rest)
      | none => do
        let (n, rest) ← number? text
        match n with
        | .integer i => return (.integer ⟨text, rest⟩ i, rest)
        | .float x => return (.float ⟨text, rest⟩ x, rest)

def maximalDepth : Nat := 80

def statement? (text : List Char) : Option (Statement × List Char) :=
  match text with
  | '[' :: '[' :: inner => do
    let ((path, key), rest) ← key? inner
    let rest ← expect? ']' (← expect? ']' rest)
    return (.repeatedHeader path key ⟨text, rest⟩, rest)
  | '[' :: inner => do
    let ((path, key), rest) ← key? inner
    let rest ← expect? ']' rest
    return (.header path key ⟨text, rest⟩, rest)
  | _ => do
    let (a, rest) ← assignment? (value? maximalDepth) text
    return (.assignment a, rest)

def statements : Nat → List Char → Option (List Statement)
  | 0, _ => none
  | bound + 1, text =>
    match skipBlanks text with
    | [] => some []
    | '#' :: _ | '\n' :: _ | '\r' :: _ => do
      let rest ← endLine? text
      statements bound rest
    | start => do
      let (first, rest) ← statement? start
      let rest ← endLine? rest
      let others ← statements bound rest
      return first :: others

def statementsOf? (text : List Char) : Option (List Statement) :=
  let body := match text with
    | '\ufeff' :: rest => rest
    | _ => text
  statements (text.length + 1) body

end LeibnizSieve.Toml
