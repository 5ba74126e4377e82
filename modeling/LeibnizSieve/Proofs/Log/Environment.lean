import LeibnizSieve.Proofs.Log.Offsets
import LeibnizSieve.Proofs.Log.Specificity

/-! What an environment value makes of a filter. Its parts are read one by one, and those that are
no directives are noticed and left out; one that cannot be scanned stops the program after the
notices of the parts in front of it. Main statements: the directives of the value are the whole
filter, and only if it has none the configured directive is; and when a value can be read to its
end. -/

namespace LeibnizSieve.Log

open Text

section Parts

variable {part : List Char} {ps : List (List Char)} {text : String} {configured : Directive}

def IsDirective (part : List Char) : Prop := ∃ d, Directive.parse part = .ok d

/-- A value that is read to its end, as it is meant to be whatever its parts are: those that are no
directives are ignored. Bytes that are no text have no parts. -/
def ReadToEnd (value : Option Bytes) : Prop :=
  ∀ text, value = some (utf8 text) → ∀ part ∈ parts text, ¬ Directive.Stops part

def reached (ps : List (List Char)) : List (List Char) :=
  ps.takeWhile fun part => ¬ Directive.Stops part

def directives (text : String) : List Directive :=
  (parts text).filterMap fun part => (Directive.parse part).toOption

def notice? (part : List Char) : Option String :=
  match Directive.parse part with
  | .error (.refused cause) => some (ignoredLine part cause)
  | .ok _ | .error .stopped => none

def notices (text : String) : List String := (reached (parts text)).filterMap notice?

theorem reached_cons (h : ¬ Directive.Stops part) : reached (part :: ps) = part :: reached ps :=
  List.takeWhile_cons_of_pos (by simpa using h)

theorem reached_stopped (h : Directive.Stops part) : reached (part :: ps) = [] :=
  List.takeWhile_cons_of_neg (by simpa using h)

theorem not_stops_of_directive (h : IsDirective part) : ¬ Directive.Stops part := by
  obtain ⟨d, hd⟩ := h
  rw [Directive.Stops, hd]
  nofun

theorem readParts_eq (ps : List (List Char)) : readParts ps =
    (if ∀ part ∈ ps, ¬ Directive.Stops part then
        some (ps.filterMap fun part => (Directive.parse part).toOption)
      else none,
      String.join ((reached ps).filterMap notice?)) := by
  induction ps with
  | nil => rfl
  | cons part rest ih =>
    rw [readParts]
    cases hread : Directive.parse part with
    | ok d =>
      have hgoes := not_stops_of_directive ⟨d, hread⟩
      have hnotice : notice? part = none := by rw [notice?, hread]
      simp only [ih, reached_cons hgoes, List.filterMap_cons_none hnotice, List.forall_mem_cons,
        hgoes, not_false_eq_true, true_and, List.filterMap_cons, hread, Except.toOption]
      split_ifs <;> rfl
    | error fault =>
      cases fault with
      | refused cause =>
        have hgoes : ¬ Directive.Stops part := by
          rw [Directive.Stops, hread]
          nofun
        have hnotice : notice? part = some (ignoredLine part cause) := by rw [notice?, hread]
        simp only [ih, reached_cons hgoes, List.filterMap_cons_some hnotice, String.join_cons,
          List.forall_mem_cons, hgoes, not_false_eq_true, true_and, List.filterMap_cons, hread,
          Except.toOption]
      | stopped =>
        have hstops : Directive.Stops part := hread
        rw [reached_stopped hstops, if_neg]
        · rfl
        · intro h
          exact h part List.mem_cons_self hstops

theorem filterOfEnvironment_text (configured : Directive) (text : String) :
    filterOfEnvironment configured (some (utf8 text)) =
      (if ∀ part ∈ parts text, ¬ Directive.Stops part then
          some (Filter.ofDirectives
            (if (directives text).isEmpty then [configured] else directives text))
        else none,
        String.join (notices text)) := by
  simp only [filterOfEnvironment, Option.bind_some, ofUtf8_utf8, Option.getD_some, readParts_eq]
  split
  · rfl
  · rfl

theorem filterOfEnvironment_stopped (h : ∃ part ∈ parts text, Directive.Stops part) :
    filterOfEnvironment configured (some (utf8 text)) = (none, String.join (notices text)) := by
  obtain ⟨part, hpart, hstops⟩ := h
  rw [filterOfEnvironment_text, if_neg]
  intro hgoes
  exact hgoes part hpart hstops

theorem filterOfEnvironment_unread {value : Option Bytes} (h : ∀ text, value ≠ some (utf8 text)) :
    filterOfEnvironment configured value = (some (Filter.ofDirectives [configured]), "") := by
  rw [filterOfEnvironment, bind_ofUtf8_eq_none h]
  rfl

theorem exists_filter {value : Option Bytes} (h : ReadToEnd value) (configured : Directive) :
    ∃ filter notices, filterOfEnvironment configured value = (some filter, notices) := by
  by_cases htext : ∃ text, value = some (utf8 text)
  · obtain ⟨text, rfl⟩ := htext
    rw [filterOfEnvironment_text, if_pos (h text rfl)]
    exact ⟨_, _, rfl⟩
  · rw [filterOfEnvironment_unread (not_exists.1 htext)]
    exact ⟨_, _, rfl⟩

end Parts

end LeibnizSieve.Log
