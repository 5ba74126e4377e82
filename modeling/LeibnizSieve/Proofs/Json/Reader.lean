import LeibnizSieve.Proofs.Decimal.RoundTrip
import LeibnizSieve.Toml.Quoted

/-! Reading JSON. A number stays a decimal, for its text fixes no format; members of an object stay
in their order, and a name may occur twice. -/

namespace LeibnizSieve.Json

open Decimal

inductive Value where
  | null
  | boolean (b : Bool)
  | number (negative : Bool) (magnitude : Digits)
  | string (text : String)
  | array (elements : List Value)
  | object (members : List (String × Value))

def isSpace (c : Char) : Bool := c = ' ' || c = '\t' || c = '\n' || c = '\r'

def skipSpace (text : List Char) : List Char := text.dropWhile isSpace

def numbered? (text : List Char) : Option (Char × List Char) := do
  let (high, rest) ← Toml.hexNumber? 4 0 text
  if 0xd800 ≤ high ∧ high < 0xdc00 then
    match rest with
    | '\\' :: 'u' :: rest => do
      let (low, rest) ← Toml.hexNumber? 4 0 rest
      if 0xdc00 ≤ low ∧ low < 0xe000 then
        return (Char.ofNat (0x10000 + (high - 0xd800) * 0x400 + (low - 0xdc00)), rest)
      else none
    | _ => none
  else if high.isValidChar then return (Char.ofNat high, rest)
  else none

def escape? : List Char → Option (Char × List Char)
  | '"' :: rest => some ('"', rest)
  | '\\' :: rest => some ('\\', rest)
  | '/' :: rest => some ('/', rest)
  | 'b' :: rest => some ('\x08', rest)
  | 'f' :: rest => some ('\x0c', rest)
  | 'n' :: rest => some ('\n', rest)
  | 'r' :: rest => some ('\r', rest)
  | 't' :: rest => some ('\t', rest)
  | 'u' :: rest => numbered? rest
  | _ => none

def character? : List Char → Option (Char × List Char)
  | '\\' :: rest => escape? rest
  | c :: rest => if ' ' ≤ c then some (c, rest) else none
  | [] => none

def characters : Nat → List Char → Option (List Char × List Char)
  | 0, _ => none
  | _ + 1, '"' :: rest => some ([], rest)
  | bound + 1, text => do
    let (c, rest) ← character? text
    let (cs, rest) ← characters bound rest
    return (c :: cs, rest)

def string? : List Char → Option (String × List Char)
  | '"' :: rest =>
    (characters (rest.length + 1) rest).map fun (cs, rest) => (String.ofList cs, rest)
  | _ => none

def separated {α : Type} (item : List Char → Option (α × List Char)) (close : Char) :
    Nat → List Char → Option (List α × List Char)
  | 0, _ => none
  | bound + 1, text => do
    let (first, rest) ← item (skipSpace text)
    match skipSpace rest with
    | ',' :: rest => do
      let (others, rest) ← separated item close bound rest
      return (first :: others, rest)
    | c :: rest => if c = close then return ([first], rest) else none
    | [] => none

def bracketed {α : Type} (item : List Char → Option (α × List Char)) (close : Char)
    (text : List Char) : Option (List α × List Char) :=
  match skipSpace text with
  | [] => none
  | c :: rest => if c = close then some ([], rest) else separated item close (text.length + 1) text

def member? (value : List Char → Option (Value × List Char)) (text : List Char) :
    Option ((String × Value) × List Char) := do
  let (name, rest) ← string? text
  match skipSpace rest with
  | ':' :: rest => do
    let (v, rest) ← value (skipSpace rest)
    return ((name, v), rest)
  | _ => none

def value? : Nat → List Char → Option (Value × List Char)
  | 0, _ => none
  | depth + 1, text =>
    match text with
    | 'n' :: 'u' :: 'l' :: 'l' :: rest => some (.null, rest)
    | 't' :: 'r' :: 'u' :: 'e' :: rest => some (.boolean true, rest)
    | 'f' :: 'a' :: 'l' :: 's' :: 'e' :: rest => some (.boolean false, rest)
    | '"' :: _ => (string? text).map fun (s, rest) => (.string s, rest)
    | '[' :: rest => (bracketed (value? depth) ']' rest).map fun (vs, rest) => (.array vs, rest)
    | '\x7b' :: rest =>
      (bracketed (member? (value? depth)) '\x7d' rest).map fun (ms, rest) => (.object ms, rest)
    | _ => (number? text).map fun ((negative, d), rest) => (.number negative d, rest)

/-- A text that is one value, with white space around it. Its length is deep enough. -/
def read? (text : String) : Option Value :=
  match value? (text.toList.length + 1) (skipSpace text.toList) with
  | some (v, rest) => if skipSpace rest = [] then some v else none
  | none => none

/-- Characters that a string holds as they are. -/
def IsPlain (text : String) : Prop := ∀ c ∈ text.toList, ' ' ≤ c ∧ c ≠ '"' ∧ c ≠ '\\'

section Strings

theorem characters_plain {cs : List Char} (h : ∀ c ∈ cs, ' ' ≤ c ∧ c ≠ '"' ∧ c ≠ '\\')
    {bound : ℕ} (hbound : cs.length < bound) (rest : List Char) :
    characters bound (cs ++ '"' :: rest) = some (cs, rest) := by
  induction cs generalizing bound with
  | nil =>
    obtain ⟨bound, rfl⟩ := Nat.exists_eq_succ_of_ne_zero (Nat.ne_of_gt hbound)
    rfl
  | cons c cs ih =>
    obtain ⟨bound, rfl⟩ := Nat.exists_eq_succ_of_ne_zero (Nat.ne_of_gt (Nat.zero_lt_of_lt hbound))
    obtain ⟨hspace, hquote, hescape⟩ := h c List.mem_cons_self
    have hchar : character? (c :: (cs ++ '"' :: rest)) = some (c, cs ++ '"' :: rest) := by
      rw [character?, if_pos hspace]
      exact hescape
    have hrest := ih (fun d hd => h d (List.mem_cons_of_mem c hd)) (Nat.lt_of_succ_lt_succ hbound)
    rw [List.cons_append, characters]
    · simp [hchar, hrest]
    · rintro tail h
      exact hquote (List.cons.inj h).1

theorem string_plain {text : String} (h : IsPlain text) (rest : List Char) :
    string? ('"' :: (text.toList ++ '"' :: rest)) = some (text, rest) := by
  have hbound : text.toList.length < (text.toList ++ '"' :: rest).length + 1 := by
    rw [List.length_append]
    omega
  simp only [string?, characters_plain h hbound, Option.map_some, String.ofList_toList]

end Strings

section Spaces

theorem skipSpace_cons {c : Char} (h : isSpace c = false) (rest : List Char) :
    skipSpace (c :: rest) = c :: rest := by
  simp [skipSpace, h]

theorem skipSpace_of_value {depth : ℕ} {text rest : List Char} {v : Value}
    (h : value? depth text = some (v, rest)) : skipSpace text = text := by
  cases text with
  | nil => rfl
  | cons c text =>
    refine skipSpace_cons ?_ text
    by_contra hspace
    have hc : c = ' ' ∨ c = '\t' ∨ c = '\n' ∨ c = '\r' := by
      rw [Bool.not_eq_false, isSpace] at hspace
      simpa only [Bool.or_eq_true, decide_eq_true_eq, or_assoc] using hspace
    cases depth with
    | zero => cases h
    | succ depth =>
      rcases hc with rfl | rfl | rfl | rfl <;>
        simp [value?, number?, magnitude?, whole?, digits?] at h

end Spaces

theorem value_number {text rest : List Char} {negative : Bool} {d : Digits}
    (h : number? text = some ((negative, d), rest)) (depth : ℕ) :
    value? (depth + 1) text = some (.number negative d, rest) := by
  unfold value?
  split
  case h_7 => rw [h, Option.map_some]
  all_goals simp [number?, magnitude?, whole?, digits?] at h

end LeibnizSieve.Json
