import LeibnizSieve.CommandLine.Program

/-! Which report a value asks for. Each request has one value that names it, and the path of a file
is all that follows the mark, byte for byte. Main statement: a value names a request, asks for
nothing, or is answered with one warning, and both programs read it alike. -/

namespace LeibnizSieve.Text

theorem exists_utf8_of_append {start text : String} {rest : Bytes}
    (h : utf8 text = utf8 start ++ rest) : ∃ left, text = start ++ left ∧ rest = utf8 left := by
  have hbytes : start.toList.utf8Encode ++ ⟨rest.toArray⟩ = text.toList.utf8Encode := by
    have hdata : text.toByteArray = start.toByteArray ++ ⟨rest.toArray⟩ := by
      apply ByteArray.ext
      apply Array.toList_inj.1
      simpa [utf8] using h
    simpa using hdata.symm
  obtain ⟨left, hleft⟩ := List.isPrefix_of_utf8Encode_append_eq_utf8Encode _ hbytes
  have htext : text = start ++ String.ofList left := by
    rw [← String.toList_inj, String.toList_append, String.toList_ofList, hleft]
  refine ⟨String.ofList left, htext, ?_⟩
  rw [htext, utf8_append] at h
  exact (List.append_cancel_left h).symm

end LeibnizSieve.Text

namespace LeibnizSieve.Report

open Text Console CommandLine

/-- The values that ask for a report, each with what it asks for. -/
inductive Names : String → Request → Prop where
  | human : Names "1" ⟨.human, .errorStream⟩
  | json : Names "json" ⟨.json, .errorStream⟩
  | file (path : String) : Names ("json:" ++ path) ⟨.json, .file path⟩

section Grammar

variable {value path : String} {r : Request}

theorem filePath_eq_some : filePath? value.toList = some path ↔ value = "json:" ++ path := by
  have hmark : "json:".toList = ['j', 's', 'o', 'n', ':'] := rfl
  rw [← String.toList_inj, String.toList_append, hmark]
  unfold filePath?
  split
  · next rest heq => simp [heq, ← String.toList_inj]
  · next hother =>
    refine iff_of_false (by simp) ?_
    intro h
    exact hother _ h

theorem ne_of_mark (h : value = "json:" ++ path) :
    ¬ (value = "" ∨ value = "0") ∧ value ≠ "1" ∧ value ≠ "json" := by
  have hne (short : String) (hshort : short.length < 5) : value ≠ short := by
    intro heq
    have hmark : "json:".length = 5 := rfl
    rw [← heq, h, String.length_append] at hshort
    omega
  exact ⟨not_or.2 ⟨hne "" (by decide), hne "0" (by decide)⟩, hne "1" (by decide),
    hne "json" (by decide)⟩

theorem ne_of_not_names (h : ∀ r, ¬ Names value r) : value ≠ "1" ∧ value ≠ "json" := by
  constructor
  · rintro rfl
    exact h _ .human
  · rintro rfl
    exact h _ .json

theorem filePath_other (h : ∀ r, ¬ Names value r) : filePath? value.toList = none := by
  rw [Option.eq_none_iff_forall_ne_some]
  intro path hpath
  rw [filePath_eq_some] at hpath
  subst hpath
  exact h _ (.file path)

/-- A reading of values: each value asks for nothing, names a request, or is complained about. -/
structure Grammar (read : String → Answer) : Prop where
  nothing : ∀ value, read value = .ok none ↔ value = "" ∨ value = "0"
  asks : ∀ value r, read value = .ok (some r) ↔ Names value r
  other : ∀ value u, read value = .error u ↔
    u = ⟨value⟩ ∧ ¬ (value = "" ∨ value = "0") ∧ ∀ r, ¬ Names value r

theorem grammar_of_cases {read : String → Answer}
    (hnothing : ∀ value, value = "" ∨ value = "0" → read value = .ok none)
    (hasks : ∀ value r, Names value r → read value = .ok (some r))
    (hother : ∀ value, ¬ (value = "" ∨ value = "0") → (∀ r, ¬ Names value r) →
      read value = .error ⟨value⟩) : Grammar read := by
  have hcases (value : String) : (value = "" ∨ value = "0") ∨ (∃ r, Names value r) ∨
      ¬ (value = "" ∨ value = "0") ∧ ∀ r, ¬ Names value r := by
    by_cases h : value = "" ∨ value = "0"
    · exact .inl h
    · by_cases hnames : ∃ r, Names value r
      · exact .inr (.inl hnames)
      · exact .inr (.inr ⟨h, not_exists.1 hnames⟩)
  refine ⟨?_, ?_, ?_⟩
  · intro value
    refine ⟨fun hread => ?_, hnothing value⟩
    rcases hcases value with h | ⟨r, h⟩ | ⟨h, hnames⟩
    · exact h
    · rw [hasks value r h] at hread
      cases hread
    · rw [hother value h hnames] at hread
      cases hread
  · intro value r
    refine ⟨fun hread => ?_, hasks value r⟩
    rcases hcases value with h | ⟨r', h⟩ | ⟨h, hnames⟩
    · rw [hnothing value h] at hread
      cases hread
    · rw [hasks value r' h] at hread
      cases hread
      exact h
    · rw [hother value h hnames] at hread
      cases hread
  · intro value u
    constructor
    · intro hread
      rcases hcases value with h | ⟨r, h⟩ | ⟨h, hnames⟩
      · rw [hnothing value h] at hread
        cases hread
      · rw [hasks value r h] at hread
        cases hread
      · rw [hother value h hnames] at hread
        cases hread
        exact ⟨rfl, h, hnames⟩
    · rintro ⟨rfl, h, hnames⟩
      exact hother value h hnames

/-- The grammar leaves no choice. -/
theorem Grammar.unique {read read' : String → Answer} (h : Grammar read) (h' : Grammar read')
    (value : String) : read value = read' value := by
  cases hread : read value with
  | error u => exact ((h'.other value u).2 ((h.other value u).1 hread)).symm
  | ok answer =>
    cases answer with
    | none => exact ((h'.nothing value).2 ((h.nothing value).1 hread)).symm
    | some r => exact ((h'.asks value r).2 ((h.asks value r).1 hread)).symm

theorem grammar_ofValue : Grammar Request.ofValue := by
  apply grammar_of_cases
  · intro value h
    rw [Request.ofValue, if_pos h]
  · intro value r h
    cases h with
    | human => rfl
    | json => rfl
    | file path =>
      obtain ⟨hnothing, hhuman, hjson⟩ := ne_of_mark (rfl : "json:" ++ path = _)
      rw [Request.ofValue, if_neg hnothing, if_neg hhuman, if_neg hjson, filePath_eq_some.2 rfl]
  · intro value h hnames
    obtain ⟨hhuman, hjson⟩ := ne_of_not_names hnames
    rw [Request.ofValue, if_neg h, if_neg hhuman, if_neg hjson, filePath_other hnames]

theorem grammar_requestOf : Grammar Sieve.requestOf := by
  apply grammar_of_cases
  · intro value h
    rw [Sieve.requestOf, if_pos h]
    rfl
  · intro value r h
    cases h with
    | human => rfl
    | json => rfl
    | file path =>
      obtain ⟨hnothing, hhuman, hjson⟩ := ne_of_mark (rfl : "json:" ++ path = _)
      rw [Sieve.requestOf, if_neg hnothing, if_neg hhuman, if_neg hjson, filePath_eq_some.2 rfl]
      rfl
  · intro value h hnames
    obtain ⟨hhuman, hjson⟩ := ne_of_not_names hnames
    rw [Sieve.requestOf, if_neg h, if_neg hhuman, if_neg hjson, filePath_other hnames]
    rfl

theorem Names.unique {value' : String} (h : Names value r) (h' : Names value' r) :
    value = value' := by
  cases h <;> cases h' <;> rfl

theorem names_of_mark (h : utf8 "json:" <+: utf8 value) :
    ∃ path, (utf8 value).drop 5 = utf8 path ∧ Names value ⟨.json, .file path⟩ := by
  obtain ⟨rest, hrest⟩ := h
  obtain ⟨path, rfl, rfl⟩ := exists_utf8_of_append hrest.symm
  refine ⟨path, ?_, .file path⟩
  rw [← hrest]
  rfl

end Grammar

section Variable

variable {α : Type} {p : Program α} {text : String} {e : Surroundings}

theorem request_text (h : e.reportVariable = some (utf8 text)) (s : Session) :
    p.request e s = match p.requestOf text with
      | .ok r => (s, r)
      | .error u => (s.complain (u.message ++ "\n"), none) := by
  cases hread : p.requestOf text <;> rw [Program.request, h, ofVariable_utf8, hread]

theorem request_no_text (h : ∀ text, e.reportVariable ≠ some (utf8 text)) (s : Session) :
    p.request e s = (s, none) := by
  rw [Program.request, Request.ofVariable, bind_ofUtf8_eq_none h]

theorem message_line (text : String) : (Unrecognized.mk text).message ++ "\n" =
    "Warning: COMPUTE_REPORT='" ++ text ++ "' not recognized, ignoring\n" := by
  have hend : "' not recognized, ignoring\n" = "' not recognized, ignoring" ++ "\n" := rfl
  have hstart : "Warning: COMPUTE_REPORT='" = "Warning: " ++ variableName ++ "='" := rfl
  rw [hend, hstart, ← String.append_assoc]
  rfl

/-- How a program that keeps to the grammar takes the variable, before it does anything else. -/
structure Answers (p : Program α) : Prop where
  grammar : Grammar p.requestOf
  asks : ∀ (e : Surroundings) s text r, e.reportVariable = some (utf8 text) →
    p.requestOf text = .ok r → p.request e s = (s, r)
  /-- One warning, which quotes the value. -/
  warns : ∀ (e : Surroundings) s text u, e.reportVariable = some (utf8 text) →
    p.requestOf text = .error u → p.request e s =
      (s.complain ("Warning: COMPUTE_REPORT='" ++ text ++ "' not recognized, ignoring\n"), none)
  unread : ∀ (e : Surroundings) s, (∀ text, e.reportVariable ≠ some (utf8 text)) →
    p.request e s = (s, none)
  first : ∀ (e : Surroundings) s choice, p.start e choice s =
    (p.conclude e.words choice (p.request e s).1, (p.request e s).2)

theorem Grammar.answers (h : Grammar p.requestOf) : Answers p where
  grammar := h
  asks e s text r htext hread := by rw [request_text htext, hread]
  warns e s text u htext hread := by
    obtain ⟨rfl, -⟩ := (h.other text u).1 hread
    rw [request_text htext, hread, ← message_line]
  unread e s hnone := request_no_text hnone s
  first _ _ _ := rfl

theorem request_congr {β : Type} {p' : Program β}
    (h : ∀ value, p.requestOf value = p'.requestOf value) (e : Surroundings) (s : Session) :
    p.request e s = p'.request e s := by
  rw [Program.request, Program.request, funext h]

/-- Both readings keep to one grammar, so they agree. A value is answered in one of three ways, and
no request has two values; none is for lines in a file. A run reads the variable, if it holds a
text, before anything else and adds at most one warning, the same one whatever the program. -/
theorem request_grammar :
    Grammar Request.ofValue ∧ Grammar Sieve.requestOf ∧
    (∀ value, Request.ofValue value = Sieve.requestOf value) ∧
    (∀ value value' r, Names value r → Names value' r → value = value') ∧
    (∀ value path, ¬ Names value ⟨.human, .file path⟩) ∧
    (∀ value, utf8 "json:" <+: utf8 value →
      ∃ path, (utf8 value).drop 5 = utf8 path ∧ Names value ⟨.json, .file path⟩) ∧
    Answers seriesProgram ∧ ∀ capacity, Answers (sieveProgram capacity) ∧
      ∀ e s, seriesProgram.request e s = (sieveProgram capacity).request e s := by
  refine ⟨grammar_ofValue, grammar_requestOf, grammar_ofValue.unique grammar_requestOf,
    fun _ _ _ => Names.unique, ?_, fun _ => names_of_mark, grammar_ofValue.answers, ?_⟩
  · rintro value path ⟨⟩
  · intro capacity
    have hsieve : Grammar (sieveProgram capacity).requestOf := grammar_requestOf
    exact ⟨hsieve.answers, request_congr (grammar_ofValue.unique hsieve)⟩

end Variable

end LeibnizSieve.Report
