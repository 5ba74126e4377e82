/-!
Blanks, line ends and comments. Every scanner takes the text from where it stands and returns the
rest. Main statements: skipping takes text away, and blanks are skipped in one go.
-/

namespace LeibnizSieve.Toml

def isBlank (c : Char) : Bool :=
  c = ' ' || c = '\t'

def skipBlanks (text : List Char) : List Char :=
  text.dropWhile isBlank

def newline? : List Char → Option (List Char)
  | '\n' :: rest => some rest
  | '\r' :: '\n' :: rest => some rest
  | _ => none

def isCommentChar (c : Char) : Bool :=
  c = '\t' || (32 ≤ c.toNat && c.toNat ≠ 127)

def skipComment : List Char → List Char
  | '#' :: rest => rest.dropWhile isCommentChar
  | text => text

def endLine? (text : List Char) : Option (List Char) :=
  match skipComment (skipBlanks text) with
  | [] => some []
  | rest => newline? rest

theorem length_skipBlanks_le (text : List Char) : (skipBlanks text).length ≤ text.length :=
  (List.dropWhile_sublist _).length_le

theorem length_skipComment_le (text : List Char) :
    (skipComment text).length ≤ text.length := by
  unfold skipComment
  split
  · exact Nat.le_trans (List.dropWhile_sublist _).length_le (Nat.le_succ _)
  · exact Nat.le_refl _

theorem newline_length {text rest : List Char} (h : newline? text = some rest) :
    rest.length < text.length := by
  unfold newline? at h
  split at h
  · cases h
    exact Nat.lt_succ_self _
  · cases h
    exact Nat.lt_succ_of_lt (Nat.lt_succ_self _)
  · cases h

def skipLayout (text : List Char) : List Char :=
  match _h : newline? (skipComment (skipBlanks text)) with
  | some next => skipLayout next
  | none => skipComment (skipBlanks text)
termination_by text.length
decreasing_by
  have := newline_length _h
  have := length_skipComment_le (skipBlanks text)
  have := length_skipBlanks_le text
  omega

def skipBlankLines (text : List Char) : List Char :=
  match _h : newline? (skipBlanks text) with
  | some next => skipBlankLines next
  | none => skipBlanks text
termination_by text.length
decreasing_by
  have := newline_length _h
  have := length_skipBlanks_le text
  omega

theorem length_skipBlankLines_le (text : List Char) :
    (skipBlankLines text).length ≤ text.length := by
  fun_induction skipBlankLines text with
  | case1 text next h ih =>
    have := newline_length h
    have := length_skipBlanks_le text
    omega
  | case2 text h => exact length_skipBlanks_le text

@[simp] theorem skipBlanks_nil : skipBlanks [] = [] := rfl

theorem skipBlanks_cons {c : Char} (h : isBlank c = false) (rest : List Char) :
    skipBlanks (c :: rest) = c :: rest := by
  simp [skipBlanks, h]

theorem skipBlanks_skipBlanks (text : List Char) :
    skipBlanks (skipBlanks text) = skipBlanks text := by
  simp only [skipBlanks]
  induction text with
  | nil => rfl
  | cons c rest ih => by_cases h : isBlank c <;> simp [h, ih]

end LeibnizSieve.Toml
