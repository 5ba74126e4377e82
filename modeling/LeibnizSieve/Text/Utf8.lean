/-!
Text as bytes. Writing is total; reading refuses bytes that are not UTF-8, except for paths
shown to a reader, where each maximal piece of an ill-formed character becomes U+FFFD. Main
statement: reading what was written gives the text back.
-/

namespace LeibnizSieve.Text

abbrev Bytes := List UInt8

def utf8 (text : String) : Bytes :=
  text.toByteArray.data.toList

def ofUtf8? (bytes : Bytes) : Option String :=
  String.fromUTF8? ⟨bytes.toArray⟩

@[simp] theorem ofUtf8_utf8 (text : String) : ofUtf8? (utf8 text) = some text := by
  have h : (⟨(utf8 text).toArray⟩ : ByteArray) = text.toByteArray := by simp [utf8]
  simp only [ofUtf8?, String.fromUTF8?, h]
  rw [dif_pos text.isValidUTF8]
  rfl

theorem ofUtf8_eq_some {bytes : Bytes} {text : String} :
    ofUtf8? bytes = some text ↔ bytes = utf8 text := by
  constructor
  · intro h
    rw [ofUtf8?, String.fromUTF8?] at h
    split at h
    · cases h
      simp [utf8, String.fromUTF8]
    · cases h
  · intro h
    rw [h, ofUtf8_utf8]

theorem bind_ofUtf8_eq_none {value : Option Bytes} (h : ∀ text, value ≠ some (utf8 text)) :
    value.bind ofUtf8? = none := by
  rw [Option.bind_eq_none_iff]
  rintro bytes rfl
  rw [Option.eq_none_iff_forall_ne_some]
  intro text htext
  rw [ofUtf8_eq_some] at htext
  exact h text (congrArg some htext)

@[simp] theorem utf8_empty : utf8 "" = [] := rfl

@[simp] theorem utf8_append (a b : String) : utf8 (a ++ b) = utf8 a ++ utf8 b := by
  simp [utf8]

structure Partial where
  bits : Nat
  missing : Nat
  low : UInt8
  high : UInt8

def replacement : Char := Char.ofNat 0xfffd

/-- A byte at the start of a character: a whole character, or one begun. The range of the second
byte leaves out overlong forms, surrogates and what lies above the last character. -/
def beginChar (b : UInt8) : List Char × Option Partial :=
  if b < 0x80 then ([Char.ofNat b.toNat], none)
  else if b < 0xc2 then ([replacement], none)
  else if b < 0xe0 then ([], some ⟨b.toNat % 32, 1, 0x80, 0xbf⟩)
  else if b < 0xf0 then
    ([], some ⟨b.toNat % 16, 2, if b = 0xe0 then 0xa0 else 0x80, if b = 0xed then 0x9f else 0xbf⟩)
  else if b < 0xf5 then
    ([], some ⟨b.toNat % 8, 3, if b = 0xf0 then 0x90 else 0x80, if b = 0xf4 then 0x8f else 0xbf⟩)
  else ([replacement], none)

def lossyChars : Option Partial → Bytes → List Char
  | none, [] => []
  | some _, [] => [replacement]
  | none, b :: rest =>
    let (done, begun) := beginChar b
    done ++ lossyChars begun rest
  | some p, b :: rest =>
    if p.low ≤ b ∧ b ≤ p.high then
      let bits := p.bits * 64 + b.toNat % 64
      if p.missing ≤ 1 then Char.ofNat bits :: lossyChars none rest
      else lossyChars (some ⟨bits, p.missing - 1, 0x80, 0xbf⟩) rest
    else
      let (done, begun) := beginChar b
      replacement :: done ++ lossyChars begun rest

def lossyText (bytes : Bytes) : String :=
  String.ofList (lossyChars none bytes)

end LeibnizSieve.Text
