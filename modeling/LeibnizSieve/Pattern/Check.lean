import LeibnizSieve.Pattern.Bracket
import LeibnizSieve.Text.Alphanumeric

/-!
Whole patterns. A pattern is read from left to right; of what was read, only the depth is kept,
and whether the ends of words of all scripts are asked for. Main statement: each step takes text
away.
-/

namespace LeibnizSieve.Pattern

open Text

structure Part where
  depth : Nat
  /-- Flags between parts cannot be repeated. -/
  repeatable : Bool
  deriving DecidableEq, Repr

structure Group where
  /-- The parts of the alternative that is being read, the last one first. -/
  parts : List Part
  /-- The depths of the alternatives before it. -/
  before : List Nat
  deriving DecidableEq, Repr

namespace Group

def empty : Group := ⟨[], []⟩

def push (g : Group) (part : Part) : Group :=
  { g with parts := part :: g.parts }

def lastDepth (g : Group) : Nat :=
  depthOfParts (g.parts.map (·.depth))

def depth (g : Group) : Nat :=
  depthOfParts (g.lastDepth :: g.before)

def alternate (g : Group) : Group := ⟨[], g.lastDepth :: g.before⟩

def repeat? (g : Group) : Option Group :=
  match g.parts with
  | [] => none
  | part :: parts =>
    if part.repeatable then some { g with parts := ⟨part.depth + 1, true⟩ :: parts } else none

end Group

inductive Opening where
  | group
  | named (name : List Char)
  | flagged (flags : List Char)
  /-- Flags for what follows in the group around; nothing is opened. -/
  | flags (flags : List Char)
  deriving DecidableEq, Repr

def isNameStart (c : Char) : Bool :=
  c = '_' || isAlphabetic c

def isNameChar (c : Char) : Bool :=
  c = '_' || c = '.' || c = '[' || c = ']' || isAlphanumeric c

def isName : List Char → Bool
  | [] => false
  | c :: rest => isNameStart c && rest.all isNameChar

def name? (text : List Char) : Option (Opening × List Char) :=
  match text.dropWhile (· ≠ '>') with
  | [] => none
  | _ :: rest =>
    let name := text.takeWhile (· ≠ '>')
    if isName name then some (.named name, rest) else none

def isFlagChar (c : Char) : Bool :=
  c ≠ ':' && c ≠ ')'

def flags? (text : List Char) : Option (Opening × List Char) :=
  let flags := text.takeWhile isFlagChar
  if Modes.areFlags flags then
    match text.dropWhile isFlagChar with
    | ':' :: rest => some (.flagged flags, rest)
    | _ :: rest => if flags = [] then none else some (.flags flags, rest)
    | [] => none
  else none

/-- What follows a parenthesis. A look at what is around a place begins like flags or a name, but
is neither. -/
def opening? : List Char → Option (Opening × List Char)
  | '?' :: 'P' :: '<' :: rest => name? rest
  | '?' :: '<' :: rest => name? rest
  | '?' :: rest => flags? rest
  | rest => some (.group, rest)

structure Reading where
  modes : Modes
  names : List (List Char)
  /-- Whether an end of a word of all scripts was asked for. -/
  wordEdges : Bool
  group : Group
  /-- The groups around, with the modes to return to, the innermost first. -/
  outer : List (Modes × Group)
  deriving DecidableEq, Repr

namespace Reading

def start : Reading := ⟨.initial, [], false, .empty, []⟩

def push (r : Reading) (depth : Nat) : Reading :=
  { r with group := r.group.push ⟨depth, true⟩ }

def atom? (r : Reading) : Atom → Option Reading
  | .char c byte => if r.modes.allowsChar byte c then some (r.push 0) else none
  | .kind negated => if r.modes.allowsKind negated then some (r.push 0) else none
  | .edge => some (r.push 0)
  | .wordEdge => some { r.push 0 with wordEdges := r.wordEdges || r.modes.allScripts }

def enter (r : Reading) (modes : Modes) : Reading :=
  { r with modes, group := .empty, outer := (r.modes, r.group) :: r.outer }

def open? (r : Reading) : Opening → Option Reading
  | .group => some (r.enter r.modes)
  | .named name =>
    if name ∈ r.names then none
    else some { r.enter r.modes with names := name :: r.names }
  | .flagged flags => some (r.enter (r.modes.apply flags))
  | .flags flags =>
    some { r with modes := r.modes.apply flags, group := r.group.push ⟨0, false⟩ }

def close? (r : Reading) : Option Reading :=
  match r.outer with
  | [] => none
  | (modes, group) :: outer =>
    some { r with modes, group := group.push ⟨r.group.depth + 1, true⟩, outer }

def afterRepetition : List Char → List Char
  | '?' :: rest => rest
  | rest => rest

/-- What begins with the character `c`, and the text after it. A count of repetitions cannot
occur, since its closing brace would end the field. -/
def step? (r : Reading) (c : Char) (rest : List Char) : Option (Reading × List Char) :=
  match c with
  | '(' => do
    let (opening, next) ← opening? (skip r.modes rest)
    return (← r.open? opening, next)
  | ')' => do return (← r.close?, rest)
  | '|' => some ({ r with group := r.group.alternate }, rest)
  | '[' => do
    let (bracket, next) ← openBracket? r.modes rest
    let (depth, next) ← class? r.modes [] bracket next
    return (r.push depth, next)
  | '?' | '*' | '+' => do return ({ r with group := ← r.group.repeat? }, afterRepetition rest)
  | '{' => none
  | '\\' => do
    let (atom, next) ← escape? r.modes rest
    return (← r.atom? atom, next)
  | '.' => if r.modes.allScripts then some (r.push 0, rest) else none
  | '^' | '$' => do return (← r.atom? .edge, rest)
  | c => do return (← r.atom? (.char c false), rest)

end Reading

theorem length_name_le {text rest : List Char} {o : Opening}
    (h : name? text = some (o, rest)) : rest.length ≤ text.length := by
  have hd := (List.dropWhile_sublist (l := text) (· ≠ '>')).length_le
  unfold name? at h
  split at h
  · cases h
  · rename_i r hr
    rw [hr] at hd
    dsimp only at h
    split at h
    · cases h
      exact Nat.le_of_succ_le hd
    · cases h

theorem length_flags_le {text rest : List Char} {o : Opening}
    (h : flags? text = some (o, rest)) : rest.length ≤ text.length := by
  have hd := (List.dropWhile_sublist (l := text) isFlagChar).length_le
  simp only [flags?] at h
  split at h
  · split at h
    · rename_i r hr
      rw [hr] at hd
      cases h
      exact Nat.le_of_succ_le hd
    · rename_i r _ hr
      rw [hr] at hd
      split at h
      · cases h
      · cases h
        exact Nat.le_of_succ_le hd
    · cases h
  · cases h

theorem length_opening_le {text rest : List Char} {o : Opening}
    (h : opening? text = some (o, rest)) : rest.length ≤ text.length := by
  unfold opening? at h
  split at h
  · rename_i body
    exact Nat.le_trans (length_name_le h) (Nat.le_add_right body.length 3)
  · rename_i body
    exact Nat.le_trans (length_name_le h) (Nat.le_add_right body.length 2)
  · rename_i body _ _
    exact Nat.le_trans (length_flags_le h) (Nat.le_add_right body.length 1)
  · cases h
    exact Nat.le_refl _

theorem length_afterRepetition_le (text : List Char) :
    (Reading.afterRepetition text).length ≤ text.length := by
  unfold Reading.afterRepetition
  split
  · exact Nat.le_succ _
  · exact Nat.le_refl _

theorem length_step_le {r s : Reading} {c : Char} {rest next : List Char}
    (h : r.step? c rest = some (s, next)) : next.length ≤ rest.length := by
  unfold Reading.step? at h
  split at h <;> simp only [Option.bind_eq_bind, Option.bind_eq_some_iff, Option.pure_def,
    Option.some.injEq, Prod.mk.injEq, Prod.exists, Option.ite_none_right_eq_some,
    reduceCtorEq] at h
  case h_1 =>
    obtain ⟨o, t, ho, _, _, _, rfl⟩ := h
    exact Nat.le_trans (length_opening_le ho) (length_skip_le r.modes rest)
  case h_4 =>
    obtain ⟨b, t, hb, d, u, hd, _, rfl⟩ := h
    exact Nat.le_trans (Nat.le_of_lt (length_class_lt hd)) (length_openBracket_le hb)
  case h_5 | h_6 | h_7 =>
    obtain ⟨_, _, _, rfl⟩ := h
    exact length_afterRepetition_le rest
  case h_9 =>
    obtain ⟨a, t, ha, _, _, _, rfl⟩ := h
    exact Nat.le_of_lt (length_escape_lt ha)
  case h_3 | h_10 => exact Nat.le_of_eq (by simp [h])
  all_goals
    obtain ⟨_, _, _, rfl⟩ := h
    exact Nat.le_refl _

def read? (r : Reading) (text : List Char) : Option Reading :=
  match _hs : skip r.modes text with
  | [] => some r
  | c :: rest =>
    match _hc : r.step? c rest with
    | some (r, next) => read? r next
    | none => none
termination_by text.length
decreasing_by exact Nat.lt_of_le_of_lt (length_step_le _hc) (length_lt_of_skip _hs)

inductive Problem where
  /-- It is not written as a pattern is, or asks for a table that there is none of. -/
  | unbuildable
  /-- It asks for ends of words of all scripts. -/
  | wordEdges
  deriving DecidableEq, Repr

def Problem.message : Problem → String
  | .unbuildable => "error building NFA"
  | .wordEdges =>
    "unsupported regex feature for DFAs: cannot build DFAs for regexes with Unicode word "
      ++ "boundaries; switch to ASCII word boundaries, or heuristically enable Unicode word "
      ++ "boundaries or use a different regex engine"

def depthLimit : Nat := 250

def check (text : List Char) : Except Problem Unit :=
  match read? .start text with
  | none => .error .unbuildable
  | some r =>
    if r.outer ≠ [] ∨ depthLimit < r.group.depth then .error .unbuildable
    else if r.wordEdges then .error .wordEdges
    else .ok ()

end LeibnizSieve.Pattern
