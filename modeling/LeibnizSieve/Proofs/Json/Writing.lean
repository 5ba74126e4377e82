import LeibnizSieve.Proofs.Json.Reader
import LeibnizSieve.Report.Json

/-! Flat objects on one line. Main statements: such an object is read as its fields, each as the
value that its text spells, and there is no white space in it. -/

namespace LeibnizSieve.Json

open Decimal Report

section Fields

/-- The text of a field is read as a value, whatever may follow a number. -/
def Spells (v : JsonValue) (w : Value) : Prop :=
  ∀ depth rest, EndsNumber rest → value? (depth + 1) (v.text.toList ++ rest) = some (w, rest)

theorem spells_natural (n : ℕ) : Spells (.natural n) (.number false ⟨n, 0⟩) := by
  intro depth rest hrest
  have hzero : (Nat.toDigits 10 n).head? = some '0' → Nat.toDigits 10 n = ['0'] := by
    intro h
    rw [eq_zero_of_head h]
    rfl
  have hread := magnitude_whole (isDigits_toDigits n) hzero hrest
  rw [natural_toDigits] at hread
  rw [JsonValue.text, Nat.toString_eq_ofList_toDigits, String.toList_ofList]
  exact value_number (number_plain hread) depth

theorem spells_word {text : String} (h : IsPlain text) : Spells (.word text) (.string text) := by
  intro depth rest _
  have hread := string_plain h rest
  have htext : (JsonValue.word text).text.toList ++ rest =
      '"' :: (text.toList ++ '"' :: rest) := by
    simp [JsonValue.text]
  rw [htext, value?, hread, Option.map_some]

theorem spells_float {x : Float} (hx : (Reading.ofFloat x).isFinite = true) :
    ∃ negative d, Spells (.float x) (.number negative d) ∧
      ∀ y, RoundsTo negative d.value y ↔ y.toBits = x.toBits := by
  obtain ⟨negative, d, hread, hbits⟩ := number_text (l := Layout.json) (.inr rfl) hx
  exact ⟨negative, d, fun depth rest hrest => value_number (hread rest hrest) depth, hbits⟩

theorem spells_null {x : Float} (hx : (Reading.ofFloat x).isFinite = false) :
    Spells (.float x) .null := by
  intro depth rest _
  have htext : (JsonValue.float x).text = "null" := by
    rw [JsonValue.text, Layout.text]
    cases hreading : Reading.ofFloat x with
    | notANumber => rfl
    | infinite negative => rfl
    | finite negative m e => simp [hreading, Reading.isFinite] at hx
  rw [htext]
  rfl

variable {name : String} {v : JsonValue} {w : Value} {rest : List Char} {depth : ℕ}

theorem jsonField_eq (name : String) (v : JsonValue) : (jsonField name v).toList =
    '"' :: (name.toList ++ '"' :: ':' :: v.text.toList) := by
  simp [jsonField]

theorem member_jsonField (hname : IsPlain name) (hv : Spells v w) (hrest : EndsNumber rest) :
    member? (value? (depth + 1)) ((jsonField name v).toList ++ rest) = some ((name, w), rest) := by
  have hvalue := hv depth rest hrest
  rw [jsonField_eq, List.cons_append, List.append_assoc, List.cons_append, List.cons_append,
    member?, string_plain hname]
  simp only [Option.bind_eq_bind, Option.bind_some]
  rw [skipSpace_cons rfl]
  simp [skipSpace_of_value hvalue, hvalue]

def SpellsAll (fields : List (String × JsonValue)) (members : List (String × Value)) : Prop :=
  List.Forall₂ (fun f m => f.1 = m.1 ∧ IsPlain f.1 ∧ Spells f.2 m.2) fields members

theorem SpellsAll.cons {fields : List (String × JsonValue)} {members : List (String × Value)}
    (hname : IsPlain name) (hv : Spells v w) (h : SpellsAll fields members) :
    SpellsAll ((name, v) :: fields) ((name, w) :: members) :=
  List.Forall₂.cons ⟨rfl, hname, hv⟩ h

theorem skipSpace_jsonField (name : String) (v : JsonValue) (rest : List Char) :
    skipSpace ((jsonField name v).toList ++ rest) = (jsonField name v).toList ++ rest := by
  rw [jsonField_eq, List.cons_append, skipSpace_cons rfl]

def fieldText (f : String × JsonValue) : List Char := (jsonField f.1 f.2).toList

theorem intercalate_cons_cons (sep : Char) (a b : List Char) (others : List (List Char)) :
    [sep].intercalate (a :: b :: others) = a ++ sep :: [sep].intercalate (b :: others) := by
  simp [List.intercalate]

theorem exists_intercalate_cons (sep : Char) (a : List Char) (others : List (List Char)) :
    ∃ tail, [sep].intercalate (a :: others) = a ++ tail := by
  cases others with
  | nil => exact ⟨[], by simp⟩
  | cons b others => exact ⟨_, intercalate_cons_cons sep a b others⟩

theorem length_le_intercalate (sep : Char) (texts : List (List Char)) :
    texts.length ≤ ([sep].intercalate texts).length + 1 := by
  induction texts with
  | nil => simp
  | cons a others ih =>
    cases others with
    | nil => simp
    | cons b others =>
      simp only [intercalate_cons_cons, List.length_append, List.length_cons] at ih ⊢
      omega

theorem separated_fields {fields : List (String × JsonValue)} {members : List (String × Value)}
    (h : SpellsAll fields members) (hne : fields ≠ []) {bound : ℕ}
    (hbound : fields.length ≤ bound) :
    separated (member? (value? (depth + 1))) '\x7d' bound
      ([','].intercalate (fields.map fieldText) ++ '\x7d' :: rest) = some (members, rest) := by
  induction h generalizing bound with
  | nil => exact absurd rfl hne
  | @cons f m fields members hfirst hothers ih =>
    obtain ⟨hname, hplain, hspells⟩ := hfirst
    obtain ⟨bound, rfl⟩ := Nat.exists_eq_succ_of_ne_zero (Nat.ne_of_gt (Nat.zero_lt_of_lt hbound))
    have hfield : ∀ rest, EndsNumber rest → member? (value? (depth + 1))
        (skipSpace (fieldText f ++ rest)) = some (m, rest) := by
      intro rest hrest
      rw [fieldText, skipSpace_jsonField, member_jsonField hplain hspells hrest, hname]
    cases fields with
    | nil =>
      have hmembers : members = [] := List.forall₂_nil_left_iff.1 hothers
      have hlast := hfield ('\x7d' :: rest) (by simp [EndsNumber])
      have htext : [','].intercalate ([f].map fieldText) = fieldText f := by simp
      rw [htext, separated, hlast, hmembers]
      rfl
    | cons g fields =>
      have hothers' := ih (by simp) (Nat.le_of_succ_le_succ hbound)
      have hthis := hfield (',' :: ([','].intercalate ((g :: fields).map fieldText) ++
        '\x7d' :: rest)) (by simp [EndsNumber])
      rw [List.map_cons] at hothers' hthis
      rw [List.map_cons, List.map_cons, intercalate_cons_cons, List.append_assoc, List.cons_append,
        separated, hthis]
      simp only [Option.bind_eq_bind, Option.bind_some]
      rw [skipSpace_cons rfl]
      simp [hothers']

theorem bracketed_fields {fields : List (String × JsonValue)} {members : List (String × Value)}
    (h : SpellsAll fields members) :
    bracketed (member? (value? (depth + 1))) '\x7d'
      ([','].intercalate (fields.map fieldText) ++ '\x7d' :: rest) = some (members, rest) := by
  cases fields with
  | nil =>
    have hmembers : members = [] := List.forall₂_nil_left_iff.1 h
    rw [hmembers]
    rfl
  | cons f fields =>
    have hlength := length_le_intercalate ',' ((f :: fields).map fieldText)
    rw [List.length_map] at hlength
    have hread : separated (member? (value? (depth + 1))) '\x7d'
        (([','].intercalate ((f :: fields).map fieldText) ++ '\x7d' :: rest).length + 1)
        ([','].intercalate ((f :: fields).map fieldText) ++ '\x7d' :: rest) =
          some (members, rest) := by
      refine separated_fields h (by simp) ?_
      rw [List.length_append]
      omega
    obtain ⟨tail, htail⟩ := exists_intercalate_cons ',' (fieldText f) (fields.map fieldText)
    rw [List.map_cons, htail, fieldText, jsonField_eq] at hread ⊢
    rw [List.cons_append, List.cons_append, bracketed, skipSpace_cons rfl]
    exact hread

theorem toList_jsonObject (fields : List (String × JsonValue)) : (jsonObject fields).toList =
    '\x7b' :: ([','].intercalate (fields.map fieldText) ++ ['\x7d']) := by
  rw [jsonObject, String.toList_append, String.toList_append, String.toList_intercalate,
    List.map_map]
  rfl

theorem read_jsonObject {fields : List (String × JsonValue)} {members : List (String × Value)}
    (h : SpellsAll fields members) {after : String} (hafter : skipSpace after.toList = []) :
    read? (jsonObject fields ++ after) = some (.object members) := by
  rw [read?, String.toList_append, toList_jsonObject, List.cons_append, List.append_assoc,
    skipSpace_cons rfl, List.length_cons, value?, List.singleton_append, bracketed_fields h]
  simp [hafter]

end Fields

section Compact

def Compact (text : List Char) : Prop := ∀ c ∈ text, isSpace c = false

theorem compact_nil : Compact [] := by simp [Compact]

theorem compact_append {a b : List Char} (ha : Compact a) (hb : Compact b) : Compact (a ++ b) := by
  intro c hc
  rcases List.mem_append.1 hc with h | h
  · exact ha c h
  · exact hb c h

theorem compact_cons {c : Char} (hc : isSpace c = false) {a : List Char} (ha : Compact a) :
    Compact (c :: a) :=
  List.forall_mem_cons.2 ⟨hc, ha⟩

theorem compact_intercalate {sep : Char} (hsep : isSpace sep = false) {texts : List (List Char)}
    (h : ∀ text ∈ texts, Compact text) : Compact ([sep].intercalate texts) := by
  induction texts with
  | nil => simp [Compact]
  | cons a others ih =>
    have ha := h a List.mem_cons_self
    have hothers := ih fun text htext => h text (List.mem_cons_of_mem a htext)
    cases others with
    | nil => simpa using ha
    | cons b others =>
      rw [intercalate_cons_cons]
      exact compact_append ha (compact_cons hsep hothers)

theorem compact_of_all {text : List Char} (h : text.all isNumberChar = true) : Compact text := by
  intro c hc
  have hnumber := List.all_eq_true.1 h c hc
  by_contra hspace
  simp only [isSpace, Bool.not_eq_false, Bool.or_eq_true, decide_eq_true_eq] at hspace
  rcases hspace with ((rfl | rfl) | rfl) | rfl <;> exact absurd hnumber (by decide)

theorem compact_natural (n : ℕ) : Compact (JsonValue.natural n).text.toList := by
  rw [JsonValue.text, Nat.toString_eq_ofList_toDigits, String.toList_ofList]
  exact compact_of_all (all_isNumberChar (isDigits_toDigits n).2)

theorem compact_float (x : Float) : Compact (JsonValue.float x).text.toList := by
  have hnull : Compact "null".toList := by simp [Compact, isSpace]
  rw [JsonValue.text, Layout.text]
  cases Reading.ofFloat x with
  | notANumber => exact hnull
  | infinite negative => exact hnull
  | finite negative m e =>
    have hdigits := all_digitsText (l := Layout.json) (.inr rfl) (shortest Layout.json.tie m e)
    apply compact_of_all
    rw [Layout.readingText, String.toList_append, List.all_append, hdigits]
    cases negative <;> rfl

theorem compact_jsonObject {fields : List (String × JsonValue)}
    (h : ∀ f ∈ fields, Compact f.1.toList ∧ Compact f.2.text.toList) :
    Compact (jsonObject fields).toList := by
  rw [toList_jsonObject]
  refine compact_cons rfl (compact_append (compact_intercalate rfl ?_)
    (compact_cons rfl compact_nil))
  intro text htext
  obtain ⟨f, hf, rfl⟩ := List.mem_map.1 htext
  obtain ⟨hname, hvalue⟩ := h f hf
  rw [fieldText, jsonField_eq]
  exact compact_cons rfl (compact_append hname (compact_cons rfl (compact_cons rfl hvalue)))

end Compact

end LeibnizSieve.Json
