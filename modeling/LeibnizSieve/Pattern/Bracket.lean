import LeibnizSieve.Pattern.Escape

/-!
Classes of characters between brackets. A class is a union of members, or two classes joined by
an operator; classes may stand in classes. Only the depth of a class is kept. Main statement: a
class ends before the text it was read from does.
-/

namespace LeibnizSieve.Pattern

open Text

def classNames : List String :=
  ["alnum", "alpha", "ascii", "blank", "cntrl", "digit", "graph", "lower", "print", "punct",
    "space", "upper", "word", "xdigit"]

def afterName? (text : List Char) : Option (List Char) :=
  match text.dropWhile (· ≠ ':') with
  | ':' :: ']' :: rest =>
    if String.ofList (text.takeWhile (· ≠ ':')) ∈ classNames then some rest else none
  | _ => none

def namedClass? : List Char → Option (Bool × List Char)
  | ':' :: '^' :: text => (afterName? text).map fun rest => (true, rest)
  | ':' :: text => (afterName? text).map fun rest => (false, rest)
  | _ => none

/-- The depth of parts that stand beside each other: a lone part is no level of its own. -/
def depthOfParts : List Nat → Nat
  | [] => 0
  | [depth] => depth
  | depths => depths.foldl max 0 + 1

structure Bracket where
  /-- The depths of the members since the last operator. -/
  members : List Nat
  /-- The depth of what stands left of that operator. -/
  left : Option Nat
  deriving DecidableEq, Repr

namespace Bracket

def push (b : Bracket) (depth : Nat) : Bracket :=
  { b with members := depth :: b.members }

def depth (b : Bracket) : Nat :=
  match b.left with
  | none => depthOfParts b.members
  | some left => max left (depthOfParts b.members) + 1

def split (b : Bracket) : Bracket := ⟨[], some b.depth⟩

end Bracket

def leadingDashes (m : Modes) : List Char → Nat × List Char
  | '-' :: rest =>
    let (count, next) := leadingDashes m (skip m rest)
    (count + 1, next)
  | text => (0, text)
termination_by text => text.length
decreasing_by exact Nat.lt_succ_of_le (length_skip_le m rest)

def negation (m : Modes) (text : List Char) : Bool × List Char :=
  match skip m text with
  | '^' :: rest => (true, skip m rest)
  | rest => (false, rest)

/-- How many members a class begins with that could mean something else further on: dashes, or
else a closing bracket. -/
def openingMembers (m : Modes) (text : List Char) : Nat × List Char :=
  match leadingDashes m text with
  | (0, ']' :: rest) => (1, skip m rest)
  | found => found

def openBracket? (m : Modes) (text : List Char) : Option (Bracket × List Char) :=
  let (negated, text) := negation m text
  let (count, rest) := openingMembers m text
  if (negated && !m.allowsComplement) || (0 < count && !m.allowsMember '-') then none
  else some (⟨List.replicate count 0, none⟩, rest)

/-- The character after a dash. When blanks do not count, they are passed over, and the mark of
one comment with them. -/
def peek (m : Modes) (text : List Char) : Option Char :=
  if m.ignoreBlanks then
    match text.dropWhile isBlank with
    | '#' :: rest => (rest.dropWhile isBlank).head?
    | rest => rest.head?
  else text.head?

def memberAtom? (m : Modes) : List Char → Option (Atom × List Char)
  | [] => none
  | '\\' :: rest => escape? m rest
  | c :: rest => some (.char c false, rest)

def allowsAlone (m : Modes) : Atom → Bool
  | .char c _ => m.allowsMember c
  | .kind negated => m.allowsKind negated
  | .edge | .wordEdge => false

def allowsRange (m : Modes) : Atom → Atom → Bool
  | .char low _, .char high _ => m.allowsMember low && m.allowsMember high && low ≤ high
  | _, _ => false

def member? (m : Modes) (text : List Char) : Option (List Char) :=
  match memberAtom? m text with
  | none => none
  | some (first, rest) =>
    match skip m rest with
    | '-' :: next =>
      if peek m next = some ']' ∨ peek m next = some '-' then
        if allowsAlone m first then some ('-' :: next) else none
      else
        match memberAtom? m (skip m next) with
        | some (second, rest) => if allowsRange m first second then some rest else none
        | none => none
    | rest => if allowsAlone m first then some rest else none

def isOperator (c : Char) : Bool :=
  c = '&' || c = '-' || c = '~'

theorem length_afterName_le {text rest : List Char} (h : afterName? text = some rest) :
    rest.length ≤ text.length := by
  unfold afterName? at h
  split at h
  · rename_i r hr
    split at h
    · cases h
      have hd := (List.dropWhile_sublist (l := text) (· ≠ ':')).length_le
      rw [hr] at hd
      exact Nat.le_of_succ_le (Nat.le_of_succ_le hd)
    · cases h
  · cases h

theorem length_namedClass_lt {text rest : List Char} {negated : Bool}
    (h : namedClass? text = some (negated, rest)) : rest.length < text.length := by
  unfold namedClass? at h
  split at h
  · obtain ⟨r, hr, he⟩ := Option.map_eq_some_iff.1 h
    cases he
    exact Nat.lt_succ_of_le (Nat.le_succ_of_le (length_afterName_le hr))
  · obtain ⟨r, hr, he⟩ := Option.map_eq_some_iff.1 h
    cases he
    exact Nat.lt_succ_of_le (length_afterName_le hr)
  · cases h

theorem length_leadingDashes_le (m : Modes) (text : List Char) :
    (leadingDashes m text).2.length ≤ text.length := by
  fun_induction leadingDashes m text with
  | case1 rest count next h ih =>
    rw [h] at ih
    exact Nat.le_succ_of_le (Nat.le_trans ih (length_skip_le m rest))
  | case2 => exact Nat.le_refl _

theorem length_negation_le (m : Modes) (text : List Char) :
    (negation m text).2.length ≤ text.length := by
  have hs := length_skip_le m text
  unfold negation
  split
  · rename_i rest h
    rw [h] at hs
    exact Nat.le_trans (length_skip_le m rest) (Nat.le_of_succ_le hs)
  · exact hs

theorem length_openingMembers_le (m : Modes) (text : List Char) :
    (openingMembers m text).2.length ≤ text.length := by
  have hd := length_leadingDashes_le m text
  unfold openingMembers
  split
  · rename_i rest h
    rw [h] at hd
    exact Nat.le_trans (length_skip_le m rest) (Nat.le_of_succ_le hd)
  · exact hd

theorem length_openBracket_le {m : Modes} {text rest : List Char} {b : Bracket}
    (h : openBracket? m text = some (b, rest)) : rest.length ≤ text.length := by
  simp only [openBracket?] at h
  split at h
  · cases h
  · cases h
    exact Nat.le_trans (length_openingMembers_le m _) (length_negation_le m text)

theorem length_memberAtom_lt {m : Modes} {text rest : List Char} {atom : Atom}
    (h : memberAtom? m text = some (atom, rest)) : rest.length < text.length := by
  unfold memberAtom? at h
  split at h
  · cases h
  · exact Nat.lt_succ_of_lt (length_escape_lt h)
  · cases h
    exact Nat.lt_succ_self _

theorem length_member_lt {m : Modes} {text rest : List Char}
    (h : member? m text = some rest) : rest.length < text.length := by
  unfold member? at h
  split at h
  · cases h
  · rename_i first after ha
    have hf := length_memberAtom_lt ha
    have hs := length_skip_le m after
    split at h
    · rename_i next hn
      rw [hn] at hs
      split at h
      · split at h
        · cases h
          exact Nat.lt_of_le_of_lt hs hf
        · cases h
      · split at h
        · rename_i second r hr
          split at h
          · cases h
            have := length_memberAtom_lt hr
            have := length_skip_le m next
            simp only [List.length_cons] at hs
            omega
          · cases h
        · cases h
    · split at h
      · cases h
        exact Nat.lt_of_le_of_lt hs hf
      · cases h

/-- A class, from inside of its outermost bracket on: its depth, and the text after it. -/
def class? (m : Modes) (outer : List Bracket) (b : Bracket) (text : List Char) :
    Option (Nat × List Char) :=
  match _hs : skip m text with
  | [] => none
  | '[' :: rest =>
    match _hn : namedClass? rest with
    | some (negated, next) =>
      if m.allowsNamed negated then class? m outer (b.push 0) next else none
    | none =>
      match _hb : openBracket? m rest with
      | some (inner, next) => class? m (b :: outer) inner next
      | none => none
  | ']' :: rest =>
    match outer with
    | [] => some (b.depth + 1, rest)
    | parent :: outer => class? m outer (parent.push (b.depth + 1)) rest
  | c :: rest =>
    if isOperator c ∧ rest.head? = some c then class? m outer b.split (rest.drop 1)
    else
      match _hm : member? m (c :: rest) with
      | some next => class? m outer (b.push 0) next
      | none => none
termination_by text.length
decreasing_by
  · exact Nat.lt_trans (length_namedClass_lt _hn) (length_lt_of_skip _hs)
  · exact Nat.lt_of_le_of_lt (length_openBracket_le _hb) (length_lt_of_skip _hs)
  · exact length_lt_of_skip _hs
  · exact Nat.lt_of_le_of_lt (List.drop_sublist 1 rest).length_le (length_lt_of_skip _hs)
  · exact Nat.lt_of_lt_of_le (length_member_lt _hm) (length_lt_of_skip _hs)

theorem length_class_lt {m : Modes} {outer : List Bracket} {b : Bracket} {text rest : List Char}
    {depth : Nat} (h : class? m outer b text = some (depth, rest)) :
    rest.length < text.length := by
  fun_induction class? m outer b text with
  | case1 => cases h
  | case2 outer b text r hs negated next hn _ ih =>
    exact Nat.lt_trans (ih h) (Nat.lt_trans (length_namedClass_lt hn) (length_lt_of_skip hs))
  | case3 => cases h
  | case4 outer b text r hs _ inner next hb ih =>
    exact Nat.lt_trans (ih h)
      (Nat.lt_of_le_of_lt (length_openBracket_le hb) (length_lt_of_skip hs))
  | case5 => cases h
  | case6 b text r hs =>
    cases h
    exact length_lt_of_skip hs
  | case7 b text r hs parent outer ih => exact Nat.lt_trans (ih h) (length_lt_of_skip hs)
  | case8 outer b text c r _ _ hs _ ih =>
    exact Nat.lt_trans (ih h) (Nat.lt_of_le_of_lt (List.drop_sublist 1 r).length_le
      (length_lt_of_skip hs))
  | case9 outer b text c r _ _ hs _ next hm ih =>
    exact Nat.lt_trans (ih h) (Nat.lt_of_lt_of_le (length_member_lt hm) (length_lt_of_skip hs))
  | case10 => cases h

end LeibnizSieve.Pattern
