import LeibnizSieve.Text.Blank

/-!
The modes of a pattern: what its flags can turn on and off from one place to the next. Patterns
are only checked, since no span is ever opened whose fields they could be compared with, so three
modes matter. There are no tables for the cases and classes of all scripts; what would need one
is refused.
-/

namespace LeibnizSieve.Pattern

open Text

structure Modes where
  ignoreCase : Bool
  /-- Characters are those of all scripts, and not bytes. -/
  allScripts : Bool
  /-- Blanks and comments do not count. -/
  ignoreBlanks : Bool
  deriving DecidableEq, Repr

namespace Modes

def initial : Modes := ⟨false, true, false⟩

def flagLetters : List Char := ['i', 'm', 's', 'U', 'u', 'R', 'x']

/-- Flags are letters, each at most once, and perhaps a dash in front of those that are turned
off. -/
def areFlags (flags : List Char) : Bool :=
  flags.all (fun c => c = '-' || flagLetters.contains c)
    && decide flags.Nodup && flags.getLast? ≠ some '-'

def flagged (flags : List Char) (letter : Char) (before : Bool) : Bool :=
  if letter ∈ flags then letter ∈ flags.takeWhile (· ≠ '-') else before

def apply (m : Modes) (flags : List Char) : Modes where
  ignoreCase := flagged flags 'i' m.ignoreCase
  allScripts := flagged flags 'u' m.allScripts
  ignoreBlanks := flagged flags 'x' m.ignoreBlanks

/-- Whether a character may stand for itself. `byte` says that it was written as two hexadecimal
digits, which without other scripts means a byte and not a character. -/
def allowsChar (m : Modes) (byte : Bool) (c : Char) : Bool :=
  if m.allScripts then !m.ignoreCase else !byte || c.toNat < 128

def allowsMember (m : Modes) (c : Char) : Bool :=
  if m.allScripts then !m.ignoreCase else c.toNat < 128

def allowsNamed (m : Modes) (negated : Bool) : Bool :=
  if m.allScripts then !m.ignoreCase else !negated

def allowsKind (m : Modes) (negated : Bool) : Bool :=
  !m.allScripts && !negated

def allowsComplement (m : Modes) : Bool :=
  m.allScripts

end Modes

def skipRemarks (inComment : Bool) : List Char → List Char
  | [] => []
  | c :: rest =>
    if inComment then skipRemarks (c ≠ '\n') rest
    else if isBlank c then skipRemarks false rest
    else if c = '#' then skipRemarks true rest
    else c :: rest

def skip (m : Modes) (text : List Char) : List Char :=
  if m.ignoreBlanks then skipRemarks false text else text

theorem length_skipRemarks_le (inComment : Bool) (text : List Char) :
    (skipRemarks inComment text).length ≤ text.length := by
  induction text generalizing inComment with
  | nil => exact Nat.le_refl _
  | cons c rest ih =>
    unfold skipRemarks
    split
    · exact Nat.le_succ_of_le (ih _)
    · split
      · exact Nat.le_succ_of_le (ih _)
      · split
        · exact Nat.le_succ_of_le (ih _)
        · exact Nat.le_refl _

theorem length_skip_le (m : Modes) (text : List Char) : (skip m text).length ≤ text.length := by
  unfold skip
  split
  · exact length_skipRemarks_le false text
  · exact Nat.le_refl _

theorem length_lt_of_skip {m : Modes} {text rest : List Char} {c : Char}
    (h : skip m text = c :: rest) : rest.length < text.length := by
  have hs := length_skip_le m text
  rw [h] at hs
  exact hs

end LeibnizSieve.Pattern
