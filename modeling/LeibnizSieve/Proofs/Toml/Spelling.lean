import Mathlib.Data.List.Forall2
import Mathlib.Data.Nat.Digits.Defs
import LeibnizSieve.Toml.Statement

/-! How strings and keys may be written, and that the readers give back what was written. -/

namespace LeibnizSieve.Toml

def Visible (c : Char) : Prop :=
  c = '\t' ∨ 32 ≤ c.toNat ∧ c.toNat ≠ 127

section Escapes

inductive HexDigit : Char → ℕ → Prop
  | decimal (d : Fin 10) : HexDigit (Char.ofNat (48 + d)) d
  | upper (d : Fin 6) : HexDigit (Char.ofNat (65 + d)) (10 + d)
  | lower (d : Fin 6) : HexDigit (Char.ofNat (97 + d)) (10 + d)

inductive ShortEscape : Char → Char → Prop
  | backspace : ShortEscape '\x08' 'b'
  | tab : ShortEscape '\t' 't'
  | lineFeed : ShortEscape '\n' 'n'
  | formFeed : ShortEscape '\x0c' 'f'
  | carriageReturn : ShortEscape '\r' 'r'
  | quote : ShortEscape '"' '"'
  | backslash : ShortEscape '\\' '\\'

/-- A character between double quotes: as it is, by a letter, or by its number in four or eight
digits. -/
inductive CharText : Char → List Char → Prop
  | plain {c : Char} (hvisible : Visible c) (hquote : c ≠ '"') (hbackslash : c ≠ '\\') :
    CharText c [c]
  | short {c letter : Char} (h : ShortEscape c letter) : CharText c ['\\', letter]
  | four {c : Char} {cs : List Char} {ds : List ℕ} (hdigits : List.Forall₂ HexDigit cs ds)
    (hlength : cs.length = 4) (hnumber : Nat.ofDigits 16 ds.reverse = c.toNat) :
    CharText c ('\\' :: 'u' :: cs)
  | eight {c : Char} {cs : List Char} {ds : List ℕ} (hdigits : List.Forall₂ HexDigit cs ds)
    (hlength : cs.length = 8) (hnumber : Nat.ofDigits 16 ds.reverse = c.toNat) :
    CharText c ('\\' :: 'U' :: cs)

inductive CharsText : List Char → List Char → Prop
  | nil : CharsText [] []
  | cons {c : Char} {cs text texts : List Char} (hc : CharText c text) (hcs : CharsText cs texts) :
    CharsText (c :: cs) (text ++ texts)

inductive BasicString (s : String) : List Char → Prop
  | mk {text : List Char} (h : CharsText s.toList text) : BasicString s ('"' :: text ++ ['"'])

theorem HexDigit.reads {c : Char} {d : ℕ} (h : HexDigit c d) : Text.hexDigit? c = some d := by
  cases h with
  | decimal d | upper d | lower d =>
    revert d
    decide

theorem hexNumber_append {cs : List Char} {ds : List ℕ} (h : List.Forall₂ HexDigit cs ds)
    (value : ℕ) (rest : List Char) :
    hexNumber? cs.length value (cs ++ rest) =
      some (16 ^ ds.length * value + Nat.ofDigits 16 ds.reverse, rest) := by
  induction h generalizing value with
  | nil => simp [hexNumber?]
  | @cons c d cs ds hc hcs ih =>
    rw [List.length_cons, List.cons_append, hexNumber?, hc.reads]
    dsimp only
    rw [ih, List.reverse_cons, Nat.ofDigits_append, Nat.ofDigits_singleton, List.length_reverse,
      List.length_cons]
    congr 2
    ring

theorem numberedChar_append {c : Char} {cs : List Char} {ds : List ℕ}
    (h : List.Forall₂ HexDigit cs ds) (hnumber : Nat.ofDigits 16 ds.reverse = c.toNat)
    (rest : List Char) : numberedChar? cs.length (cs ++ rest) = some (c, rest) := by
  have hvalid : c.toNat.isValidChar := c.valid
  rw [numberedChar?, hexNumber_append h, mul_zero, zero_add, hnumber]
  simp [hvalid]

theorem isPlainChar_of_visible {c : Char} (h : Visible c) : isPlainChar c = true := by
  simpa [isPlainChar, Visible] using h

theorem basicText_escape {text next : List Char} {c : Char} (h : escape? text = some (c, next)) :
    basicText ('\\' :: text) = (basicText next).map (prepend c) := by
  rw [basicText]
  split
  case h_1 heq =>
    rw [h] at heq
    cases heq
    rfl
  case h_2 heq =>
    rw [h] at heq
    cases heq

theorem CharText.reads {c : Char} {text : List Char} (h : CharText c text) (rest : List Char) :
    basicText (text ++ rest) = (basicText rest).map (prepend c) := by
  cases h with
  | plain hvisible hquote hbackslash =>
    rw [List.singleton_append, basicText, if_pos (isPlainChar_of_visible hvisible)]
    all_goals simpa
  | short h => cases h <;> exact basicText_escape rfl
  | four hdigits hlength hnumber =>
    have h := numberedChar_append hdigits hnumber rest
    rw [hlength] at h
    exact basicText_escape h
  | eight hdigits hlength hnumber =>
    have h := numberedChar_append hdigits hnumber rest
    rw [hlength] at h
    exact basicText_escape h

theorem CharsText.reads {cs text : List Char} (h : CharsText cs text) (rest : List Char) :
    basicText (text ++ '"' :: rest) = some (cs, rest) := by
  induction h with
  | nil => rw [List.nil_append, basicText]
  | cons hc hcs ih =>
    rw [List.append_assoc, hc.reads, ih]
    rfl

theorem exists_hexDigits (count n : ℕ) (h : n < 16 ^ count) :
    ∃ cs ds, cs.length = count ∧ List.Forall₂ HexDigit cs ds ∧ Nat.ofDigits 16 ds.reverse = n := by
  induction count generalizing n with
  | zero =>
    have hzero : n = 0 := Nat.lt_one_iff.1 h
    exact ⟨[], [], rfl, .nil, hzero.symm⟩
  | succ count ih =>
    obtain ⟨cs, ds, hlength, hdigits, hnumber⟩ := ih (n / 16) (by rw [pow_succ] at h; omega)
    obtain ⟨c, hc⟩ : ∃ c, HexDigit c (n % 16) := by
      rcases Nat.lt_or_ge (n % 16) 10 with hlt | hge
      · exact ⟨_, .decimal ⟨n % 16, hlt⟩⟩
      · have hdigit := HexDigit.upper ⟨n % 16 - 10, by omega⟩
        rw [Nat.add_sub_cancel' hge] at hdigit
        exact ⟨_, hdigit⟩
    refine ⟨cs ++ [c], ds ++ [n % 16], by simp [hlength], ?_, ?_⟩
    · exact List.rel_append hdigits (.cons hc .nil)
    · rw [List.reverse_append, List.reverse_singleton, List.singleton_append, Nat.ofDigits_cons,
        hnumber]
      exact Nat.mod_add_div n 16

theorem exists_basicString (s : String) : ∃ text, BasicString s text := by
  suffices h : ∀ cs : List Char, ∃ text, CharsText cs text by
    obtain ⟨text, htext⟩ := h s.toList
    exact ⟨_, .mk htext⟩
  intro cs
  induction cs with
  | nil => exact ⟨[], .nil⟩
  | cons c cs ih =>
    obtain ⟨texts, htexts⟩ := ih
    have hlt : c.toNat < 16 ^ 8 := lt_of_lt_of_le c.val.toNat_lt (by norm_num)
    obtain ⟨digits, ds, hlength, hdigits, hnumber⟩ := exists_hexDigits 8 c.toNat hlt
    exact ⟨_, .cons (.eight hdigits hlength hnumber) htexts⟩

theorem CharsText.head {cs text : List Char} (h : CharsText cs text) :
    text = [] ∨ ∃ c rest, text = c :: rest ∧ c ≠ '"' := by
  cases h with
  | nil => exact .inl rfl
  | cons hc _ =>
    right
    cases hc with
    | plain _ hquote _ => exact ⟨_, _, rfl, hquote⟩
    | short | four | eight => exact ⟨_, _, rfl, by decide⟩

theorem BasicString.lineText {s : String} {text : List Char} (h : BasicString s text)
    (rest : List Char) : lineText? (text ++ rest) = some (s, rest) := by
  cases h with
  | mk h => simp [lineText?, h.reads]

/-- Behind a text in quotes there must not be another quote: two quotes and a third would open a
text on several lines. -/
theorem BasicString.quotedText {s : String} {text rest : List Char} (h : BasicString s text)
    (hrest : ∀ tail, rest ≠ '"' :: tail) : quotedText? (text ++ rest) = some (s, rest) := by
  have hline := h.lineText rest
  unfold quotedText?
  split
  case h_1 heq =>
    cases h with
    | mk h =>
      rcases h.head with rfl | ⟨c, tail, rfl, hc⟩
      · simp only [List.cons_append, List.nil_append, List.cons.injEq, true_and] at heq
        exact absurd heq (hrest _)
      · simp only [List.cons_append, List.cons.injEq, true_and] at heq
        exact absurd heq.1 hc
  case h_2 heq =>
    cases h
    simp at heq
  case h_3 => exact hline

end Escapes

section Blanks

def Blank (text : List Char) : Prop :=
  ∀ c ∈ text, c = ' ' ∨ c = '\t'

/-- Something with blanks around it. -/
inductive Padded (P : List Char → Prop) : List Char → Prop
  | mk {before text after : List Char} (hbefore : Blank before) (h : P text)
    (hafter : Blank after) : Padded P (before ++ text ++ after)

theorem Padded.unpadded {P : List Char → Prop} {text : List Char} (h : P text) : Padded P text := by
  have hpadded := @Padded.mk P [] text [] nofun h nofun
  rwa [List.nil_append, List.append_nil] at hpadded

theorem isBlank_of_blank {text : List Char} (h : Blank text) : ∀ c ∈ text, isBlank c = true := by
  intro c hc
  simpa [isBlank] using h c hc

theorem skipBlanks_append {blanks : List Char} (h : Blank blanks) (rest : List Char) :
    skipBlanks (blanks ++ rest) = skipBlanks rest :=
  List.dropWhile_append_of_pos (isBlank_of_blank h)

end Blanks

section Keys

inductive KeyText (name : String) : List Char → Prop
  | bare (hne : name ≠ "") (h : ∀ c ∈ name.toList, c.isAlphanum ∨ c = '-' ∨ c = '_') :
    KeyText name name.toList
  | basic {text : List Char} (h : BasicString name text) : KeyText name text
  | literal (h : ∀ c ∈ name.toList, Visible c ∧ c ≠ '\'') :
    KeyText name ('\'' :: name.toList ++ ['\''])

theorem KeyText.of_all {name : String} (hne : name ≠ "")
    (h : name.toList.all isBareKeyChar = true) : KeyText name name.toList := by
  refine .bare hne fun c hc => ?_
  have hc' := List.all_eq_true.1 h c hc
  simpa [isBareKeyChar, or_assoc] using hc'

theorem literalText_append {cs : List Char} (h : ∀ c ∈ cs, Visible c ∧ c ≠ '\'')
    (rest : List Char) : literalText (cs ++ '\'' :: rest) = some (cs, rest) := by
  induction cs with
  | nil => rw [List.nil_append, literalText]
  | cons c cs ih =>
    obtain ⟨⟨hvisible, hquote⟩, hcs⟩ := List.forall_mem_cons.1 h
    rw [List.cons_append, literalText, if_pos (isPlainChar_of_visible hvisible), ih hcs]
    · rfl
    · exact hquote

def StartsKey (c : Char) : Prop :=
  isBareKeyChar c = true ∨ c = '"' ∨ c = '\''

variable {name : String} {text : List Char}

theorem KeyText.head (h : KeyText name text) : ∃ c rest, text = c :: rest ∧ StartsKey c := by
  cases h with
  | bare hne h =>
    cases hlist : name.toList with
    | nil => exact absurd (String.toList_eq_nil_iff.1 hlist) hne
    | cons c rest =>
      refine ⟨c, rest, rfl, .inl ?_⟩
      have hc := h c (hlist ▸ List.mem_cons_self)
      simpa [isBareKeyChar, or_assoc] using hc
  | basic h =>
    cases h
    exact ⟨_, _, rfl, .inr (.inl rfl)⟩
  | literal => exact ⟨_, _, rfl, .inr (.inr rfl)⟩

theorem KeyText.reads (h : KeyText name text) {d : Char} (hd : isBareKeyChar d = false)
    (rest : List Char) :
    ∃ span, keyPart? (text ++ d :: rest) = some (⟨name, span⟩, d :: rest) := by
  cases h with
  | bare hne h =>
    have hbare : ∀ c ∈ name.toList, isBareKeyChar c = true := by
      intro c hc
      simpa [isBareKeyChar, or_assoc] using h c hc
    obtain ⟨c, tail, hlist⟩ := List.exists_cons_of_ne_nil (mt String.toList_eq_nil_iff.1 hne)
    have hc := hbare c (hlist ▸ List.mem_cons_self)
    have htake : (name.toList ++ d :: rest).takeWhile isBareKeyChar = name.toList := by
      rw [List.takeWhile_append_of_pos hbare, List.takeWhile_cons_of_neg (by simp [hd]),
        List.append_nil]
    have hdrop : (name.toList ++ d :: rest).dropWhile isBareKeyChar = d :: rest := by
      rw [List.dropWhile_append_of_pos hbare, List.dropWhile_cons_of_neg (by simp [hd])]
    refine ⟨⟨name.toList ++ d :: rest, d :: rest⟩, ?_⟩
    unfold keyPart?
    split
    case h_1 heq | h_2 heq =>
      rw [hlist, List.cons_append, List.cons.injEq] at heq
      rw [heq.1] at hc
      exact absurd hc (by decide)
    case h_3 => simp [htake, hdrop, hlist ▸ List.cons_ne_nil c tail]
  | basic h =>
    refine ⟨⟨text ++ d :: rest, d :: rest⟩, ?_⟩
    have hline := h.lineText (d :: rest)
    cases h with
    | mk h =>
      rw [List.cons_append, List.cons_append] at hline ⊢
      rw [keyPart?, hline]
      rfl
  | literal h =>
    refine ⟨⟨'\'' :: name.toList ++ '\'' :: d :: rest, d :: rest⟩, ?_⟩
    rw [List.append_assoc, List.singleton_append, List.cons_append, keyPart?, lineText?,
      literalText_append h]
    simp

end Keys

end LeibnizSieve.Toml
