import LeibnizSieve.Proofs.Attempt
import LeibnizSieve.Proofs.Log.Offsets
import LeibnizSieve.Proofs.Log.Spelling

/-! Directives that give a level to a target. The text of the level is all that follows the equals
sign, and a comma closes it. Main statement: whatever stands there, the directive has the target
that was written in front, a level that was spelled, and nothing else. -/

namespace LeibnizSieve.Log.Directive

open Text

section Trimming

theorem trimBlanks_eq (text : List Char) :
    trimBlanks text = (text.dropWhile isBlank).rdropWhile isBlank := rfl

theorem rdropWhile_append_cons {c : Char} (hc : isBlank c = false) (a b : List Char) :
    (a ++ c :: b).rdropWhile isBlank = a ++ c :: b.rdropWhile isBlank := by
  simp only [List.rdropWhile, List.reverse_append, List.reverse_cons, List.append_assoc,
    List.dropWhile_append, List.singleton_append,
    List.dropWhile_cons_of_neg (Bool.eq_false_iff.1 hc)]
  split_ifs with hall
  · simp [List.isEmpty_iff.1 hall]
  · simp

theorem rdropWhile_blanks {blanks : List Char} (h : ∀ c ∈ blanks, isBlank c = true) :
    blanks.rdropWhile isBlank = [] := by
  rwa [List.rdropWhile_eq_nil_iff]

theorem rdropWhile_plain {text : List Char} (h : ∀ c ∈ text, isBlank c = false) :
    text.rdropWhile isBlank = text := by
  rw [List.rdropWhile_eq_self_iff]
  intro hne
  simp [h _ (List.getLast_mem hne)]

end Trimming

section Scanning

variable {text target cs rest word level : List Char} {d d' : Directive} {state state' : ScanState}
  {offset : ℕ} {c : Char} {e : Fault}

theorem scan_cons (h : scanChar text d state offset c = .ok (d', state')) :
    scan text d state offset (c :: rest) = scan text d' state' (offset + c.utf8Size) rest := by
  rw [scan, h]
  rfl

theorem scan_cons_error (h : scanChar text d state offset c = .error e) :
    scan text d state offset (c :: rest) = .error e := by
  rw [scan, h]
  rfl

theorem scan_append (h : ∀ c ∈ cs, ∀ offset, scanChar text d state offset c = .ok (d, state))
    (offset : ℕ) : scan text d state offset (cs ++ rest) =
      scan text d state (offset + width cs) rest := by
  induction cs generalizing offset with
  | nil => rfl
  | cons c cs ih =>
    rw [List.forall_mem_cons] at h
    rw [List.cons_append, scan_cons (h.1 offset), ih h.2, width_cons, Nat.add_assoc]

def IsTarget (target : List Char) : Prop := ∃ c rest, target = c :: rest ∧
  isAlphanumeric c = true ∧ isBlank c = false ∧ c ≠ '[' ∧ ∀ d ∈ rest, d ≠ '=' ∧ d ≠ '[' ∧ d ≠ ','

def ofTarget (target : List Char) (shown : Level) : Directive :=
  ⟨shown, some (String.ofList target), none, []⟩

theorem scan_target (h : IsTarget target) (level rest : List Char) :
    scan (target ++ '=' :: level) everything .start 0 (target ++ '=' :: rest) =
      scan (target ++ '=' :: level) (ofTarget target .trace) (.level (width target + 1))
        (width target + 1) rest := by
  obtain ⟨c, cs, htext, halpha, -, hbracket, hcs⟩ := h
  have hfirst : scanChar (target ++ '=' :: level) everything .start 0 c =
      .ok (everything, .levelOrTarget 0) := by
    simp [scanChar, hbracket, halpha]
  have hname : ∀ d ∈ cs, ∀ offset, scanChar (target ++ '=' :: level) everything (.levelOrTarget 0)
      offset d = .ok (everything, .levelOrTarget 0) := by
    intro d hd offset
    obtain ⟨hequals, hopen, hcomma⟩ := hcs d hd
    simp [scanChar, hequals, hopen, hcomma]
  have hequals : scanChar (target ++ '=' :: level) everything (.levelOrTarget 0) (width target)
      '=' = .ok (ofTarget target .trace, .level (width target + 1)) := by
    rw [scanChar, if_pos rfl, piece_start]
    rfl
  have hwidth : 0 + c.utf8Size + width cs = width target := by
    rw [htext, width_cons]
    omega
  calc scan (target ++ '=' :: level) everything .start 0 (target ++ '=' :: rest)
      = scan (target ++ '=' :: level) everything .start 0 (c :: (cs ++ '=' :: rest)) := by
        rw [htext]
        rfl
    _ = scan (target ++ '=' :: level) everything (.levelOrTarget 0) (width target)
          ('=' :: rest) := by
        rw [scan_cons hfirst, scan_append hname, hwidth]
    _ = _ := scan_cons hequals

theorem scan_word (h : ',' ∉ word) (offset : ℕ) {start : ℕ} :
    scan text d (.level start) offset (word ++ rest) =
      scan text d (.level start) (offset + width word) rest := by
  apply scan_append
  intro c hc offset
  rw [scanChar, if_neg]
  rintro rfl
  exact h hc

theorem trimBlanks_target (h : IsTarget target) (level : List Char) :
    trimBlanks (target ++ '=' :: level) = target ++ '=' :: level.rdropWhile isBlank := by
  obtain ⟨c, cs, rfl, -, hblank, -, -⟩ := h
  rw [trimBlanks_eq, List.cons_append, List.dropWhile_cons_of_neg (Bool.eq_false_iff.1 hblank),
    ← List.cons_append, rdropWhile_append_cons (by decide)]

theorem parse_of_scan (h : scan text everything .start 0 (trimBlanks text) = .ok (d, state)) :
    parse text = finish text d state := by
  rw [parse, h]
  rfl

theorem parse_of_scan_error (h : scan text everything .start 0 (trimBlanks text) = .error e) :
    parse text = .error e := by
  rw [parse, h]
  rfl

theorem width_equals (target : List Char) : width (target ++ ['=']) = width target + 1 := by
  rw [width_append]
  rfl

theorem append_equals (target level : List Char) :
    target ++ '=' :: level = (target ++ ['=']) ++ level := by
  simp

theorem tail_target (target level : List Char) :
    tail (target ++ '=' :: level) (width target + 1) = .ok level := by
  rw [append_equals, ← width_equals, tail_append]

theorem piece_target (target word rest : List Char) :
    piece (target ++ '=' :: (word ++ rest)) (width target + 1) (width target + 1 + width word) =
      .ok word := by
  rw [append_equals, ← width_equals, piece_append]

theorem parse_open (h : IsTarget target) (hcomma : ',' ∉ level.rdropWhile isBlank) :
    parse (target ++ '=' :: level) = .ok d ↔
      ∃ shown, levelOf level = .ok shown ∧ d = ofTarget target shown := by
  have hscan : scan (target ++ '=' :: level) everything .start 0
      (trimBlanks (target ++ '=' :: level)) =
        .ok (ofTarget target .trace, .level (width target + 1)) := by
    rw [trimBlanks_target h, scan_target h, ← List.append_nil (level.rdropWhile isBlank),
      scan_word hcomma]
    rfl
  rw [parse_of_scan hscan, finish, tail_target, ok_bind, bind_eq_ok]
  constructor
  · rintro ⟨shown, hshown, hd⟩
    cases hd
    exact ⟨shown, hshown, rfl⟩
  · rintro ⟨shown, hshown, rfl⟩
    exact ⟨shown, hshown, rfl⟩

theorem scan_comma (target word more rest : List Char) {d : Directive} :
    scan (target ++ '=' :: (word ++ more)) d (.level (width target + 1))
      (width target + 1 + width word) (',' :: rest) = (levelOf word >>= fun shown =>
        scan (target ++ '=' :: (word ++ more)) { d with level := shown } .complete
          (width target + 1 + width word + ','.utf8Size) rest) := by
  rw [scan, scanChar, if_pos rfl, piece_target, ok_bind]
  cases levelOf word <;> rfl

theorem parse_closed (h : IsTarget target) (hcomma : ',' ∉ word)
    (hlevel : level.rdropWhile isBlank = word ++ ',' :: rest) :
    parse (target ++ '=' :: level) = .ok d ↔
      rest = [] ∧ ∃ shown, levelOf word = .ok shown ∧ d = ofTarget target shown := by
  obtain ⟨blanks, hblanks⟩ := level.rdropWhile_prefix (p := isBlank)
  rw [hlevel, List.append_assoc] at hblanks
  have hscan : scan (target ++ '=' :: level) everything .start 0
      (trimBlanks (target ++ '=' :: level)) = (levelOf word >>= fun shown =>
        scan (target ++ '=' :: level) (ofTarget target shown) .complete
          (width target + 1 + width word + ','.utf8Size) rest) := by
    rw [trimBlanks_target h, scan_target h, hlevel, scan_word hcomma, ← hblanks, scan_comma]
    rfl
  cases hword : levelOf word with
  | error e =>
    rw [hword] at hscan
    rw [parse_of_scan_error hscan]
    simp
  | ok shown =>
    rw [hword, ok_bind] at hscan
    cases rest with
    | nil =>
      rw [parse_of_scan hscan]
      simp [finish, eq_comm]
    | cons c rest =>
      rw [scan_cons_error (e := .refused .malformed) rfl] at hscan
      rw [parse_of_scan_error hscan]
      simp

end Scanning

section Levels

/-- The texts that give a target a level: one that spells it, or nothing, which means everything.
A comma may close it, with blanks behind. -/
def Written (text : List Char) (shown : Level) : Prop :=
  ∃ word tail, text = word ++ tail ∧ (word = [] ∧ shown = .trace ∨ Spells word shown) ∧
    (tail = [] ∨ ∃ blanks, tail = ',' :: blanks ∧ ∀ c ∈ blanks, isBlank c = true)

variable {target level : List Char} {d : Directive}

theorem parse_of_written (h : IsTarget target) {shown : Level} (hlevel : Written level shown) :
    parse (target ++ '=' :: level) = .ok (ofTarget target shown) := by
  obtain ⟨word, tail, rfl, hword, htail⟩ := hlevel
  have hread : levelOf word = .ok shown := levelOf_eq_ok.2 hword
  have hplain : ∀ c ∈ word, c ≠ ',' ∧ isBlank c = false := by
    rcases hword with ⟨rfl, -⟩ | hword
    · nofun
    · exact hword.plain
  have hcomma : ',' ∉ word := fun hmem => (hplain ',' hmem).1 rfl
  have htrim := rdropWhile_plain fun c hc => (hplain c hc).2
  rcases htail with rfl | ⟨blanks, rfl, hblanks⟩
  · rw [List.append_nil, parse_open h (by rwa [htrim])]
    exact ⟨shown, hread, rfl⟩
  · have hclosed : (word ++ ',' :: blanks).rdropWhile isBlank = word ++ ',' :: [] := by
      rw [rdropWhile_append_cons (by decide), rdropWhile_blanks hblanks]
    rw [parse_closed h hcomma hclosed]
    exact ⟨rfl, shown, hread, rfl⟩

theorem written_of_parse (h : IsTarget target) (hd : parse (target ++ '=' :: level) = .ok d) :
    ∃ shown, Written level shown ∧ d = ofTarget target shown := by
  by_cases hcomma : ',' ∈ level.rdropWhile isBlank
  · obtain ⟨word, rest, hlevel, hword⟩ := List.eq_append_cons_of_mem hcomma
    rw [parse_closed h hword hlevel] at hd
    obtain ⟨rfl, shown, hread, rfl⟩ := hd
    have htext := List.rdropWhile_append_rtakeWhile (p := isBlank) (l := level)
    rw [hlevel, List.append_assoc] at htext
    refine ⟨shown, ⟨word, _, htext.symm, levelOf_eq_ok.1 hread, .inr ⟨_, rfl, ?_⟩⟩, rfl⟩
    intro c hc
    exact List.mem_rtakeWhile_imp hc
  · rw [parse_open h hcomma] at hd
    obtain ⟨shown, hread, rfl⟩ := hd
    exact ⟨shown, ⟨level, [], by simp, levelOf_eq_ok.1 hread, .inl rfl⟩, rfl⟩

theorem parse_target (h : IsTarget target) : parse (target ++ '=' :: level) = .ok d ↔
    ∃ shown, Written level shown ∧ d = ofTarget target shown := by
  refine ⟨written_of_parse h, ?_⟩
  rintro ⟨shown, hlevel, rfl⟩
  exact parse_of_written h hlevel

theorem render_ofTarget (h : target ≠ []) (shown : Level) :
    (ofTarget target shown).render = String.ofList target ++ "=" ++ shown.name := by
  have hplace : String.ofList target ≠ "" := by
    rwa [ne_eq, ← String.toList_inj, String.toList_ofList]
  simp [render, ofTarget, hplace]

theorem written_name (shown : Level) : Written shown.name.toList shown :=
  ⟨_, [], by simp, .inr (.name (List.forall₂_same.2 fun _ _ => .inl rfl)), .inl rfl⟩

theorem written_of_spells {shown : Level} (h : Spells level shown) : Written level shown :=
  ⟨level, [], by simp, .inr h, .inl rfl⟩

end Levels

end LeibnizSieve.Log.Directive
