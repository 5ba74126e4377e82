import LeibnizSieve.Toml.Value
import LeibnizSieve.Text.Utf8

/-!
Messages about a place in a text: line and column, the line itself, and marks under the place.
Lines and columns count from one; columns count characters, marks count bytes.
-/

namespace LeibnizSieve.Toml

def before (text place : List Char) : List Char :=
  text.take (text.length - place.length)

def lineIndex (text place : List Char) : Nat :=
  (before text place).count '\n'

def columnIndex (text place : List Char) : Nat :=
  ((before text place).reverse.takeWhile (· ≠ '\n')).length

def byteLength (text : List Char) : Nat :=
  (Text.utf8 (String.ofList text)).length

/-- One mark for each byte of the span, but none past the end of the line and at least one. -/
def markCount (line : List Char) (column : Nat) (span : Span) : Nat :=
  max 1 (min (byteLength span.start - byteLength span.stop) (byteLength line - column))

def blanks (count : Nat) : String :=
  String.ofList (List.replicate count ' ')

def located (text : List Char) (span : Span) (message : String) : String :=
  let line := lineIndex text span.start
  let column := columnIndex text span.start
  let content := (text.splitOn '\n').getD line []
  let number := toString (line + 1)
  let gutter := blanks (number.length + 1)
  "TOML parse error at line " ++ number ++ ", column " ++ toString (column + 1) ++ "\n"
    ++ gutter ++ "|\n"
    ++ number ++ " | " ++ String.ofList content ++ "\n"
    ++ gutter ++ "|" ++ blanks (column + 1)
    ++ String.ofList (List.replicate (markCount content column span) '^') ++ "\n"
    ++ message ++ "\n"

end LeibnizSieve.Toml
