import LeibnizSieve.Pattern.Modes
import LeibnizSieve.Text.Hexadecimal

/-!
What a backslash begins. Main statement: an escape takes at least one character.
-/

namespace LeibnizSieve.Pattern

inductive Atom where
  /-- A character for itself; `byte` says that it was written as two hexadecimal digits. -/
  | char (c : Char) (byte : Bool)
  /-- Any digit, word character or blank, or any other character than those. -/
  | kind (negated : Bool)
  | edge
  | wordEdge
  deriving DecidableEq, Repr

def hexNumber? (m : Modes) : Nat → Nat → List Char → Option (Nat × List Char)
  | 0, value, text => some (value, text)
  | count + 1, value, text =>
    match skip m text with
    | c :: rest =>
      match Text.hexDigit? c with
      | some digit => hexNumber? m count (16 * value + digit) rest
      | none => none
    | [] => none

/-- A character by its number. Digits between braces cannot occur, since the closing brace would
end the field. -/
def numberedChar? (m : Modes) (count : Nat) (text : List Char) : Option (Atom × List Char) :=
  match hexNumber? m count 0 text with
  | some (n, rest) =>
    if n.isValidChar then some (.char (Char.ofNat n) (count = 2), rest) else none
  | none => none

def isEscapable (c : Char) : Bool :=
  c.toNat < 128 && !c.isAlphanum && c ≠ '<' && c ≠ '>'

/-- The atom that one letter after a backslash stands for. Properties of characters are not among
them: there is no table of any. -/
def letterAtom? (c : Char) : Option Atom :=
  match c with
  | 'a' => some (.char '\x07' false)
  | 'f' => some (.char '\x0c' false)
  | 't' => some (.char '\t' false)
  | 'n' => some (.char '\n' false)
  | 'r' => some (.char '\r' false)
  | 'v' => some (.char '\x0b' false)
  | 'd' | 's' | 'w' => some (.kind false)
  | 'D' | 'S' | 'W' => some (.kind true)
  | 'A' | 'z' => some .edge
  | 'b' | 'B' | '<' | '>' => some .wordEdge
  | _ => if isEscapable c then some (.char c false) else none

def escape? (m : Modes) : List Char → Option (Atom × List Char)
  | [] => none
  | 'x' :: rest => numberedChar? m 2 rest
  | 'u' :: rest => numberedChar? m 4 rest
  | 'U' :: rest => numberedChar? m 8 rest
  | c :: rest => (letterAtom? c).map fun atom => (atom, rest)

theorem length_hexNumber_le {m : Modes} {count value n : Nat} {text rest : List Char}
    (h : hexNumber? m count value text = some (n, rest)) : rest.length ≤ text.length := by
  induction count generalizing value text with
  | zero =>
    cases h
    exact Nat.le_refl _
  | succ count ih =>
    simp only [hexNumber?] at h
    have hs := length_skip_le m text
    split at h
    · rename_i c r hr
      rw [hr, List.length_cons] at hs
      split at h
      · exact Nat.le_trans (ih h) (Nat.le_trans (Nat.le_succ _) hs)
      · cases h
    · cases h

theorem length_numberedChar_le {m : Modes} {count : Nat} {text rest : List Char} {atom : Atom}
    (h : numberedChar? m count text = some (atom, rest)) : rest.length ≤ text.length := by
  unfold numberedChar? at h
  split at h
  · rename_i n r hn
    split at h
    · cases h
      exact length_hexNumber_le hn
    · cases h
  · cases h

theorem length_escape_lt {m : Modes} {text rest : List Char} {atom : Atom}
    (h : escape? m text = some (atom, rest)) : rest.length < text.length := by
  unfold escape? at h
  split at h
  · cases h
  · exact Nat.lt_succ_of_le (length_numberedChar_le h)
  · exact Nat.lt_succ_of_le (length_numberedChar_le h)
  · exact Nat.lt_succ_of_le (length_numberedChar_le h)
  · obtain ⟨a, _, ha⟩ := Option.map_eq_some_iff.1 h
    cases ha
    exact Nat.lt_succ_self _

end LeibnizSieve.Pattern
