import LeibnizSieve.Text.Hexadecimal
import LeibnizSieve.Toml.Trivia

/-!
Quoted text in its four forms: on one line or on several, with escapes or without. Each reader
starts after the opening quotes and returns the text with what remains after the closing ones.
-/

namespace LeibnizSieve.Toml

def isPlainChar (c : Char) : Bool :=
  c = '\t' || (32 ≤ c.toNat && c.toNat ≠ 127)

def hexNumber? : Nat → Nat → List Char → Option (Nat × List Char)
  | 0, value, rest => some (value, rest)
  | count + 1, value, c :: rest =>
    match Text.hexDigit? c with
    | some digit => hexNumber? count (16 * value + digit) rest
    | none => none
  | _ + 1, _, [] => none

def numberedChar? (count : Nat) (text : List Char) : Option (Char × List Char) :=
  match hexNumber? count 0 text with
  | some (n, rest) => if n.isValidChar then some (Char.ofNat n, rest) else none
  | none => none

def escape? : List Char → Option (Char × List Char)
  | 'b' :: rest => some ('\x08', rest)
  | 't' :: rest => some ('\t', rest)
  | 'n' :: rest => some ('\n', rest)
  | 'f' :: rest => some ('\x0c', rest)
  | 'r' :: rest => some ('\r', rest)
  | '"' :: rest => some ('"', rest)
  | '\\' :: rest => some ('\\', rest)
  | 'u' :: rest => numberedChar? 4 rest
  | 'U' :: rest => numberedChar? 8 rest
  | _ => none

theorem length_hexNumber {count value n : Nat} {text rest : List Char}
    (h : hexNumber? count value text = some (n, rest)) : rest.length + count = text.length := by
  induction count generalizing value text with
  | zero =>
    cases h
    rfl
  | succ count ih =>
    cases text with
    | nil => cases h
    | cons c text =>
      simp only [hexNumber?] at h
      split at h
      · exact congrArg (· + 1) (ih h)
      · cases h

theorem length_numberedChar {count : Nat} {text rest : List Char} {c : Char}
    (h : numberedChar? count text = some (c, rest)) : rest.length + count = text.length := by
  unfold numberedChar? at h
  split at h
  · rename_i n r hn
    split at h
    · cases h
      exact length_hexNumber hn
    · cases h
  · cases h

theorem length_escape {text rest : List Char} {c : Char} (h : escape? text = some (c, rest)) :
    rest.length < text.length := by
  unfold escape? at h
  split at h
  case h_8 r => exact Nat.lt_succ_of_le (Nat.le_of_add_right_le (Nat.le_of_eq (length_numberedChar h)))
  case h_9 r => exact Nat.lt_succ_of_le (Nat.le_of_add_right_le (Nat.le_of_eq (length_numberedChar h)))
  case h_10 => cases h
  all_goals
    cases h
    exact Nat.lt_succ_self _

def prepend (c : Char) : List Char × List Char → List Char × List Char
  | (text, rest) => (c :: text, rest)

def basicText : List Char → Option (List Char × List Char)
  | [] => none
  | '"' :: rest => some ([], rest)
  | '\\' :: rest =>
    match _h : escape? rest with
    | some (c, next) => (basicText next).map (prepend c)
    | none => none
  | c :: rest => if isPlainChar c then (basicText rest).map (prepend c) else none
termination_by text => text.length
decreasing_by
  · exact Nat.lt_succ_of_lt (length_escape _h)
  · exact Nat.lt_succ_self _

def literalText : List Char → Option (List Char × List Char)
  | [] => none
  | '\'' :: rest => some ([], rest)
  | c :: rest => if isPlainChar c then (literalText rest).map (prepend c) else none

/-- Quotes at the end of a text on several lines: three close it, and up to two in front of those
belong to it. -/
def closing? (quote : Char) (text : List Char) : Option (List Char × List Char) :=
  let run := text.takeWhile (· = quote)
  if 3 ≤ run.length then
    some (List.replicate (min (run.length - 3) 2) quote, text.drop (min run.length 5))
  else none

def dropFirstLineEnd (text : List Char) : List Char :=
  (newline? text).getD text

def basicLines (text : List Char) : Option (List Char × List Char) :=
  match closing? '"' text with
  | some done => some done
  | none =>
    match text with
    | [] => none
    | '\\' :: rest =>
      match _h : newline? (skipBlanks rest) with
      | some next => basicLines (skipBlankLines next)
      | none =>
        match _h : escape? rest with
        | some (c, next) => (basicLines next).map (prepend c)
        | none => none
    | c :: rest =>
      match _h : newline? (c :: rest) with
      | some next => (basicLines next).map (prepend '\n')
      | none => if isPlainChar c then (basicLines rest).map (prepend c) else none
termination_by text.length
decreasing_by
  · have := newline_length _h
    have := length_skipBlanks_le rest
    have := length_skipBlankLines_le next
    simp only [List.length_cons]
    omega
  · exact Nat.lt_succ_of_lt (length_escape _h)
  · exact newline_length _h
  · exact Nat.lt_succ_self _

def literalLines (text : List Char) : Option (List Char × List Char) :=
  match closing? '\'' text with
  | some done => some done
  | none =>
    match text with
    | [] => none
    | c :: rest =>
      match _h : newline? (c :: rest) with
      | some next => (literalLines next).map (prepend '\n')
      | none => if isPlainChar c then (literalLines rest).map (prepend c) else none
termination_by text.length
decreasing_by
  · exact newline_length _h
  · exact Nat.lt_succ_self _

def lineText? : List Char → Option (String × List Char)
  | '"' :: rest => (basicText rest).map fun (cs, r) => (String.ofList cs, r)
  | '\'' :: rest => (literalText rest).map fun (cs, r) => (String.ofList cs, r)
  | _ => none

def quotedText? : List Char → Option (String × List Char)
  | '"' :: '"' :: '"' :: rest =>
    (basicLines (dropFirstLineEnd rest)).map fun (cs, r) => (String.ofList cs, r)
  | '\'' :: '\'' :: '\'' :: rest =>
    (literalLines (dropFirstLineEnd rest)).map fun (cs, r) => (String.ofList cs, r)
  | text => lineText? text

end LeibnizSieve.Toml
