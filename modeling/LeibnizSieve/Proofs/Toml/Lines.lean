import Mathlib.Data.List.TakeWhile
import LeibnizSieve.Proofs.Toml.Spelling

/-! How assignments and headers may be written on lines, with comments and empty lines between them,
and the statements that are read from such lines. Spans depend on all of the text that follows, so
what is known of a value or a statement that was read is a property of it. -/

namespace LeibnizSieve.Toml

section Keys

theorem isBareKeyChar_of_blank {c : Char} (h : c = ' ' ∨ c = '\t') : isBareKeyChar c = false := by
  rcases h with rfl | rfl <;> decide

theorem StartsKey.isBlank_eq {c : Char} (h : StartsKey c) : isBlank c = false := by
  rcases h with h | rfl | rfl
  · by_contra hblank
    rw [Bool.not_eq_false, isBlank, Bool.or_eq_true, decide_eq_true_eq, decide_eq_true_eq] at hblank
    rw [isBareKeyChar_of_blank hblank] at h
    cases h
  · decide
  · decide

theorem StartsKey.ne {c d : Char} (h : StartsKey c) (hd : isBareKeyChar d = false)
    (hquote : d ≠ '"') (happostrophe : d ≠ '\'') : c ≠ d := by
  rintro rfl
  rcases h with h | rfl | rfl
  · rw [hd] at h
    cases h
  · exact hquote rfl
  · exact happostrophe rfl

theorem skipBlanks_start {c : Char} (hc : isBlank c = false) {blanks : List Char}
    (h : Blank blanks) (rest : List Char) : skipBlanks (blanks ++ c :: rest) = c :: rest := by
  rw [skipBlanks_append h, skipBlanks_cons hc]

theorem Padded.skip {P : List Char → Prop} {padded : List Char} (h : Padded P padded)
    (hP : ∀ {text}, P text → ∃ c tail, text = c :: tail ∧ isBlank c = false) (rest : List Char) :
    ∃ text after, P text ∧ Blank after ∧ skipBlanks (padded ++ rest) = text ++ (after ++ rest) := by
  obtain @⟨before, text, after, hbefore, htext, hafter⟩ := h
  obtain ⟨c, tail, rfl, hc⟩ := hP htext
  refine ⟨_, after, htext, hafter, ?_⟩
  simp only [List.append_assoc, List.cons_append]
  exact skipBlanks_start hc hbefore _

theorem Padded.mono {P Q : List Char → Prop} {padded : List Char} (h : Padded P padded)
    (hPQ : ∀ {text}, P text → Q text) : Padded Q padded := by
  obtain ⟨hbefore, htext, hafter⟩ := h
  exact ⟨hbefore, hPQ htext, hafter⟩

theorem KeyText.start {name : String} {text : List Char} (h : KeyText name text) :
    ∃ c tail, text = c :: tail ∧ isBlank c = false := by
  obtain ⟨c, tail, htail, hc⟩ := h.head
  exact ⟨c, tail, htail, hc.isBlank_eq⟩

theorem Padded.key_head {name : String} {k : List Char} (h : Padded (KeyText name) k)
    (rest : List Char) : ∃ c tail, skipBlanks (k ++ rest) = c :: tail ∧ StartsKey c := by
  obtain ⟨text, after, htext, -, hskip⟩ := h.skip KeyText.start rest
  obtain ⟨c, tail, rfl, hc⟩ := htext.head
  exact ⟨c, _, hskip, hc⟩

theorem Padded.keyPart {name : String} {k : List Char} (h : Padded (KeyText name) k) {d : Char}
    (hblank : isBlank d = false) (hbare : isBareKeyChar d = false) (rest : List Char) :
    ∃ span next, keyPart? (skipBlanks (k ++ d :: rest)) = some (⟨name, span⟩, next) ∧
      skipBlanks next = d :: rest := by
  obtain ⟨text, after, htext, hafter, hskip⟩ := h.skip KeyText.start (d :: rest)
  rw [hskip]
  have hnext := skipBlanks_start hblank hafter rest
  cases after with
  | nil =>
    obtain ⟨span, hspan⟩ := htext.reads hbare rest
    exact ⟨span, _, hspan, hnext⟩
  | cons b after =>
    have hb := isBareKeyChar_of_blank (hafter b List.mem_cons_self)
    obtain ⟨span, hspan⟩ := htext.reads hb (after ++ d :: rest)
    exact ⟨span, _, hspan, hnext⟩

theorem keyParts_single {name : String} {k : List Char} (h : Padded (KeyText name) k) {d : Char}
    (hd : d = '=' ∨ d = ']') (bound : ℕ) (rest : List Char) :
    ∃ span, keyParts (bound + 1) (k ++ d :: rest) = some (([], ⟨name, span⟩), d :: rest) := by
  have hblank : isBlank d = false := by rcases hd with rfl | rfl <;> decide
  have hbare : isBareKeyChar d = false := by rcases hd with rfl | rfl <;> decide
  obtain ⟨span, next, hpart, hnext⟩ := h.keyPart hblank hbare rest
  refine ⟨span, ?_⟩
  rw [keyParts, hpart]
  rcases hd with rfl | rfl <;> simp [hnext]

theorem keyParts_dotted {name field : String} {k f : List Char} (hk : Padded (KeyText name) k)
    (hf : Padded (KeyText field) f) (bound : ℕ) (rest : List Char) :
    ∃ span span', keyParts (bound + 2) (k ++ '.' :: (f ++ '=' :: rest)) =
      some (([⟨name, span⟩], ⟨field, span'⟩), '=' :: rest) := by
  obtain ⟨span, next, hpart, hnext⟩ :=
    hk.keyPart (d := '.') (by decide) (by decide) (f ++ '=' :: rest)
  obtain ⟨span', hlast⟩ := keyParts_single hf (.inl rfl) bound rest
  refine ⟨span, span', ?_⟩
  rw [keyParts, hpart]
  simp [hnext, hlast]

end Keys

section Values

def Follows (rest : List Char) : Prop :=
  ∀ tail, rest ≠ '"' :: tail

theorem Follows.blank {blanks rest : List Char} (hblanks : Blank blanks) (h : Follows rest) :
    Follows (blanks ++ rest) := by
  cases blanks with
  | nil => exact h
  | cons b blanks =>
    rintro tail heq
    rw [List.cons_append, List.cons.injEq] at heq
    have hb := hblanks b List.mem_cons_self
    rw [heq.1] at hb
    revert hb
    decide

theorem follows_cons {c : Char} (h : c ≠ '"') (rest : List Char) : Follows (c :: rest) := by
  rintro tail heq
  rw [List.cons.injEq] at heq
  exact h heq.1

/-- A text that readers of depth `n` and more take for a value with the property. -/
structure ValueReads (n : ℕ) (P : Value → Prop) (text : List Char) : Prop where
  start : ∃ c tail, text = c :: tail ∧ isBlank c = false
  reads : ∀ depth {rest}, Follows rest →
    ∃ v, value? (depth + n) (text ++ rest) = some (v, rest) ∧ P v

theorem BasicString.valueReads {s : String} {text : List Char} (h : BasicString s text) :
    ValueReads 1 (fun v => ∃ span, v = .string span s) text := by
  constructor
  · cases h
    exact ⟨_, _, rfl, by decide⟩
  · intro depth rest hrest
    have hquoted := h.quotedText hrest
    refine ⟨.string ⟨text ++ rest, rest⟩ s, ?_, _, rfl⟩
    cases h with
    | mk h =>
      rw [List.cons_append, List.cons_append] at hquoted ⊢
      rw [value?, hquoted]
      rfl

theorem boolean_valueReads (b : Bool) :
    ValueReads 1 (fun v => ∃ span, v = .boolean span b) (toString b).toList := by
  cases b
  · exact ⟨⟨'f', _, rfl, by decide⟩, fun _ _ _ => ⟨_, rfl, _, rfl⟩⟩
  · exact ⟨⟨'t', _, rfl, by decide⟩, fun _ _ _ => ⟨_, rfl, _, rfl⟩⟩

theorem ValueReads.mono {n : ℕ} {P Q : Value → Prop} {text : List Char} (h : ValueReads n P text)
    (hPQ : ∀ {v}, P v → Q v) : ValueReads n Q text := by
  refine ⟨h.start, fun depth rest hrest => ?_⟩
  obtain ⟨v, hv, hP⟩ := h.reads depth hrest
  exact ⟨v, hv, hPQ hP⟩

def KeysRead (path : List String) (name : String) (text : List Char) : Prop :=
  ∀ rest, ∃ keys key, key? (text ++ '=' :: rest) = some ((keys, key), '=' :: rest) ∧
    keys.map (·.name) = path ∧ key.name = name

theorem keysRead_single {name : String} {k : List Char} (h : Padded (KeyText name) k) :
    KeysRead [] name k := by
  intro rest
  obtain ⟨span, hspan⟩ := keyParts_single h (.inl rfl) 78 rest
  exact ⟨[], _, hspan, rfl, rfl⟩

theorem keysRead_dotted {name field : String} {k f : List Char} (hk : Padded (KeyText name) k)
    (hf : Padded (KeyText field) f) : KeysRead [name] field (k ++ '.' :: f) := by
  intro rest
  obtain ⟨span, span', hspan⟩ := keyParts_dotted hk hf 77 rest
  refine ⟨[⟨name, span⟩], ⟨field, span'⟩, ?_, rfl, rfl⟩
  rw [List.append_assoc, List.cons_append]
  exact hspan

/-- An assignment to keys of the names, of a value with the property. -/
structure Assigns (path : List String) (name : String) (P : Value → Prop) (a : Assignment) :
    Prop where
  path : a.path.map (·.name) = path
  key : a.key.name = name
  value : P a.value

theorem assignment_reads {path : List String} {name : String} {n : ℕ} {P : Value → Prop}
    {ks v rest : List Char} (hks : KeysRead path name ks) (hv : Padded (ValueReads n P) v)
    (hrest : Follows rest) (depth : ℕ) :
    ∃ a, assignment? (value? (depth + n)) (ks ++ '=' :: (v ++ rest)) = some (a, skipBlanks rest) ∧
      Assigns path name P a := by
  obtain ⟨keys, key, hkey, hpath, hname⟩ := hks (v ++ rest)
  obtain ⟨text, after, htext, hafter, hskip⟩ := hv.skip ValueReads.start rest
  obtain ⟨w, hw, hP⟩ := htext.reads depth (hrest.blank hafter)
  refine ⟨⟨keys, key, w⟩, ?_, hpath, hname, hP⟩
  rw [assignment?, hkey]
  simp [expect?, hskip, hw, skipBlanks_append hafter]

theorem inlineEntries_single {name : String} {n : ℕ} {P : Value → Prop} {k v : List Char}
    (hk : Padded (KeyText name) k) (hv : Padded (ValueReads n P) v) (depth : ℕ) (rest : List Char) :
    ∃ key w, inlineEntries? (value? (depth + n)) (k ++ '=' :: (v ++ '\x7d' :: rest)) =
      some ([(key, w)], rest) ∧ key.name = name ∧ P w := by
  obtain ⟨⟨path, key, w⟩, ha, hpath, hname, hP⟩ := assignment_reads (keysRead_single hk) hv
    (follows_cons (c := '\x7d') (by decide) rest) depth
  obtain rfl := List.map_eq_nil_iff.1 hpath
  refine ⟨key, w, ?_, hname, hP⟩
  unfold inlineEntries?
  split
  case h_1 heq =>
    obtain ⟨c, tail, hskip, hc⟩ := hk.key_head ('=' :: (v ++ '\x7d' :: rest))
    rw [hskip, List.cons.injEq] at heq
    exact absurd heq.1 (hc.ne (by decide) (by decide) (by decide))
  case h_2 =>
    rw [skipBlanks_cons (by decide)] at ha
    rw [inlineAssignments, ha]
    simp [Entries.assignAll, assign_fresh _ _ _ (Entries.find_nil _)]

theorem value_inline {depth : ℕ} {inner rest : List Char} {entries : Entries}
    (h : inlineEntries? (value? depth) inner = some (entries, rest)) :
    value? (depth + 1) ('\x7b' :: inner) =
      some (.table (some ⟨'\x7b' :: inner, rest⟩) .inline entries, rest) := by
  rw [value?, h]
  rfl

theorem inlineTable_valueReads {name : String} {n : ℕ} {P : Value → Prop} {k v : List Char}
    (hk : Padded (KeyText name) k) (hv : Padded (ValueReads n P) v) :
    ValueReads (n + 1)
      (fun t => ∃ span form key w, t = .table span form [(key, w)] ∧ key.name = name ∧ P w)
      ('\x7b' :: (k ++ '=' :: v) ++ ['\x7d']) := by
  refine ⟨⟨'\x7b', _, rfl, by decide⟩, fun depth rest _ => ?_⟩
  obtain ⟨key, w, hentries, hname, hP⟩ := inlineEntries_single hk hv depth rest
  have htext : '\x7b' :: (k ++ '=' :: v) ++ ['\x7d'] ++ rest =
      '\x7b' :: (k ++ '=' :: (v ++ '\x7d' :: rest)) := by simp
  rw [htext]
  exact ⟨_, value_inline hentries, _, _, key, w, rfl, hname, hP⟩

theorem emptyTable_valueReads {blanks : List Char} (h : Blank blanks) :
    ValueReads 1 (fun t => ∃ span form, t = .table span form [])
      ('\x7b' :: blanks ++ ['\x7d']) := by
  refine ⟨⟨'\x7b', _, rfl, by decide⟩, fun depth rest _ => ?_⟩
  have hskip := skipBlanks_start (c := '\x7d') (by decide) h rest
  have htext : '\x7b' :: blanks ++ ['\x7d'] ++ rest =
      '\x7b' :: (blanks ++ '\x7d' :: rest) := by simp
  have hentries : inlineEntries? (value? depth) (blanks ++ '\x7d' :: rest) = some ([], rest) := by
    rw [inlineEntries?, hskip]
    rfl
  rw [htext]
  exact ⟨_, value_inline hentries, _, _, rfl⟩

end Values

section Statements

inductive Assigned (path : List String) (name : String) (P : Value → Prop) : Statement → Prop
  | mk {a : Assignment} (h : Assigns path name P a) : Assigned path name P (.assignment a)

inductive Opened (name : String) : Statement → Prop
  | mk {key : Key} (span : Span) (h : key.name = name) : Opened name (.header [] key span)

def LineReads (Q : Statement → Prop) (line : List Char) : Prop :=
  ∀ rest, Follows rest → ∃ c tail s next,
    skipBlanks (line ++ rest) = c :: tail ∧ (c ≠ '#' ∧ c ≠ '\n' ∧ c ≠ '\r') ∧
      statement? (c :: tail) = some (s, next) ∧ skipBlanks next = skipBlanks rest ∧ Q s

theorem assignment_skipBlanks (value : List Char → Option (Value × List Char))
    (text : List Char) : assignment? value (skipBlanks text) = assignment? value text := by
  rw [assignment?, assignment?, key?, key?, keyParts, keyParts, skipBlanks_skipBlanks]

theorem statement_assignment {c : Char} (hc : c ≠ '[') (tail : List Char) :
    statement? (c :: tail) =
      (assignment? (value? maximalDepth) (c :: tail)).map fun (a, rest) =>
        (.assignment a, rest) := by
  unfold statement?
  split
  case h_1 heq | h_2 heq =>
    rw [List.cons.injEq] at heq
    exact absurd heq.1 hc
  case h_3 => cases assignment? (value? maximalDepth) (c :: tail) <;> rfl

theorem assignment_lineReads {path : List String} {name : String} {n : ℕ} {P : Value → Prop}
    {first : String} {k more v : List Char} (hk : Padded (KeyText first) k)
    (hks : KeysRead path name (k ++ more)) (hv : Padded (ValueReads n P) v) (hn : n ≤ 80) :
    LineReads (Assigned path name P) (k ++ more ++ '=' :: v) := by
  intro rest hrest
  obtain ⟨a, ha, hassigns⟩ := assignment_reads hks hv hrest (80 - n)
  obtain ⟨c, tail, hskip, hc⟩ := hk.key_head (more ++ '=' :: (v ++ rest))
  have htext : k ++ more ++ '=' :: v ++ rest = k ++ (more ++ '=' :: (v ++ rest)) := by simp
  rw [Nat.sub_add_cancel hn, List.append_assoc, ← assignment_skipBlanks, hskip] at ha
  rw [htext]
  refine ⟨c, tail, _, _, hskip, ⟨?_, ?_, ?_⟩, ?_, skipBlanks_skipBlanks rest, .mk hassigns⟩
  · exact hc.ne (by decide) (by decide) (by decide)
  · exact hc.ne (by decide) (by decide) (by decide)
  · exact hc.ne (by decide) (by decide) (by decide)
  · rw [statement_assignment (hc.ne (by decide) (by decide) (by decide)), maximalDepth, ha]
    rfl

theorem single_lineReads {name : String} {n : ℕ} {P : Value → Prop} {k v : List Char}
    (hk : Padded (KeyText name) k) (hv : Padded (ValueReads n P) v) (hn : n ≤ 80) :
    LineReads (Assigned [] name P) (k ++ '=' :: v) := by
  have hks : KeysRead [] name (k ++ []) := by
    rw [List.append_nil]
    exact keysRead_single hk
  have h := assignment_lineReads hk hks hv hn
  rwa [List.append_nil] at h

theorem dotted_lineReads {name field : String} {n : ℕ} {P : Value → Prop} {k f v : List Char}
    (hk : Padded (KeyText name) k) (hf : Padded (KeyText field) f)
    (hv : Padded (ValueReads n P) v) (hn : n ≤ 80) :
    LineReads (Assigned [name] field P) (k ++ '.' :: f ++ '=' :: v) :=
  assignment_lineReads hk (keysRead_dotted hk hf) hv hn

theorem header_lineReads {name : String} {k line : List Char} (hk : Padded (KeyText name) k)
    (h : Padded (· = '[' :: k ++ [']']) line) : LineReads (Opened name) line := by
  intro rest _
  obtain ⟨text, after, htext, hafter, hskip⟩ :=
    h.skip (fun htext => ⟨'[', _, htext, by decide⟩) rest
  have hstart : text ++ (after ++ rest) = '[' :: (k ++ ']' :: (after ++ rest)) := by simp [htext]
  obtain ⟨span, hkey⟩ := keyParts_single hk (.inr rfl) 78 (after ++ rest)
  refine ⟨'[', _, .header [] ⟨name, span⟩ ⟨'[' :: (k ++ ']' :: (after ++ rest)), after ++ rest⟩,
    after ++ rest, hskip.trans hstart, by decide, ?_, skipBlanks_append hafter rest, .mk _ rfl⟩
  unfold statement?
  split
  case h_1 heq =>
    obtain ⟨c, tail, hskip, hc⟩ := hk.key_head (']' :: (after ++ rest))
    rw [List.cons.injEq] at heq
    rw [heq.2, skipBlanks_cons (by decide), List.cons.injEq] at hskip
    exact absurd hskip.1.symm (hc.ne (by decide) (by decide) (by decide))
  case h_2 heq =>
    rw [List.cons.injEq] at heq
    rw [← heq.2, key?, hkey]
    rfl
  case h_3 hother => exact absurd rfl (hother _)

end Statements

section Lines

inductive LineEnd : List Char → Prop
  | lf : LineEnd ['\n']
  | crlf : LineEnd ['\r', '\n']

inductive Comment : List Char → Prop
  | none : Comment []
  | some {text : List Char} (h : ∀ c ∈ text, Visible c) : Comment ('#' :: text)

/-- The lines in order, each with or without a comment behind it, between any number of lines that
are empty but for blanks and a comment. The last line need not be ended. -/
inductive Lines : List (List Char) → List Char → Prop
  | last {blanks comment : List Char} (hblanks : Blank blanks) (hcomment : Comment comment) :
    Lines [] (blanks ++ comment)
  | lastLine {line comment : List Char} (hcomment : Comment comment) :
    Lines [line] (line ++ comment)
  | empty {lines : List (List Char)} {blanks comment stop rest : List Char}
    (hblanks : Blank blanks) (hcomment : Comment comment) (hstop : LineEnd stop)
    (h : Lines lines rest) : Lines lines (blanks ++ comment ++ stop ++ rest)
  | line {line : List Char} {lines : List (List Char)} {comment stop rest : List Char}
    (hcomment : Comment comment) (hstop : LineEnd stop) (h : Lines lines rest) :
    Lines (line :: lines) (line ++ comment ++ stop ++ rest)

theorem LineEnd.newline {stop : List Char} (h : LineEnd stop) (rest : List Char) :
    newline? (stop ++ rest) = some rest := by
  cases h <;> rfl

theorem LineEnd.head {stop : List Char} (h : LineEnd stop) :
    ∃ c tail, stop = c :: tail ∧ (c = '\n' ∨ c = '\r') := by
  cases h with
  | lf => exact ⟨_, _, rfl, .inl rfl⟩
  | crlf => exact ⟨_, _, rfl, .inr rfl⟩

theorem isCommentChar_of_visible {text : List Char} (h : ∀ c ∈ text, Visible c) :
    ∀ c ∈ text, isCommentChar c = true := by
  intro c hc
  simpa [isCommentChar, Visible] using h c hc

theorem Comment.skip {comment stop : List Char} (hcomment : Comment comment) (hstop : LineEnd stop)
    (rest : List Char) : skipComment (comment ++ (stop ++ rest)) = stop ++ rest := by
  obtain ⟨c, tail, rfl, hc⟩ := hstop.head
  cases hcomment with
  | none => rcases hc with rfl | rfl <;> rfl
  | some h =>
    have hstop' : isCommentChar c = false := by rcases hc with rfl | rfl <;> decide
    rw [List.cons_append, skipComment, List.dropWhile_append_of_pos (isCommentChar_of_visible h),
      List.cons_append, List.dropWhile_cons_of_neg (by simp [hstop'])]

theorem Comment.skip_last {comment : List Char} (hcomment : Comment comment) :
    skipComment comment = [] := by
  cases hcomment with
  | none => rfl
  | some h => exact List.dropWhile_eq_nil_iff.2 (isCommentChar_of_visible h)

def EndsLine (rest : List Char) : Prop :=
  ∀ c tail, rest = c :: tail → c = '#' ∨ c = '\n' ∨ c = '\r'

theorem Comment.endsLine {comment stop : List Char} (hcomment : Comment comment)
    (hstop : LineEnd stop) (rest : List Char) : EndsLine (comment ++ (stop ++ rest)) := by
  intro c tail heq
  obtain ⟨d, more, rfl, hd⟩ := hstop.head
  cases hcomment <;> cases heq
  · exact .inr hd
  · exact .inl rfl

theorem Comment.endsLine_last {comment : List Char} (hcomment : Comment comment) :
    EndsLine comment := by
  intro c tail heq
  cases hcomment <;> cases heq
  exact .inl rfl

theorem EndsLine.follows {rest : List Char} (h : EndsLine rest) : Follows rest := by
  intro tail heq
  have hc := h _ _ heq
  revert hc
  decide

theorem EndsLine.skipBlanks_eq {rest : List Char} (h : EndsLine rest) : skipBlanks rest = rest := by
  cases rest with
  | nil => rfl
  | cons c tail =>
    have hc : isBlank c = false := by rcases h c tail rfl with rfl | rfl | rfl <;> decide
    exact skipBlanks_cons hc tail

theorem endLine_of_skip {text comment stop next : List Char}
    (hcomment : Comment comment) (hstop : LineEnd stop)
    (htext : skipBlanks text = comment ++ (stop ++ next)) : endLine? text = some next := by
  rw [endLine?, htext, hcomment.skip hstop]
  obtain ⟨c, tail, rfl, -⟩ := hstop.head
  exact hstop.newline next

theorem endLine_last {text comment : List Char} (hcomment : Comment comment)
    (htext : skipBlanks text = comment) : endLine? text = some [] := by
  rw [endLine?, htext, hcomment.skip_last]

theorem statements_line {line rest next : List Char} {Q : Statement → Prop} (bound : ℕ)
    (hline : LineReads Q line) (hrest : Follows rest)
    (hend : ∀ {text}, skipBlanks text = skipBlanks rest → endLine? text = some next) :
    ∃ s, Q s ∧ statements (bound + 1) (line ++ rest) = (statements bound next).map (s :: ·) := by
  obtain ⟨c, tail, s, after, hskip, ⟨hcomment, hlf, hcr⟩, hstatement, hafter, hQ⟩ :=
    hline rest hrest
  refine ⟨s, hQ, ?_⟩
  conv_lhs => unfold statements
  -- the text is not at its end, and does not start like an empty line
  split
  case h_1 heq =>
    rw [hskip] at heq
    cases heq
  case h_2 heq =>
    rw [hskip, List.cons.injEq] at heq
    exact absurd heq.1 hcomment
  case h_3 heq =>
    rw [hskip, List.cons.injEq] at heq
    exact absurd heq.1 hlf
  case h_4 heq =>
    rw [hskip, List.cons.injEq] at heq
    exact absurd heq.1 hcr
  case h_5 =>
    rw [hskip, hstatement]
    simp only [Option.bind_eq_bind, Option.bind_some, hend hafter]
    cases statements bound next <;> rfl

theorem statements_empty {text next : List Char} {bound : ℕ} (hne : skipBlanks text ≠ [])
    (hends : EndsLine (skipBlanks text)) (hend : endLine? text = some next) :
    statements (bound + 1) text = statements bound next := by
  conv_lhs => unfold statements
  split
  case h_1 heq => exact absurd heq hne
  case h_2 | h_3 | h_4 =>
    rw [hend]
    rfl
  case h_5 hcomment hlf hcr =>
    obtain ⟨c, tail, htext⟩ := List.exists_cons_of_ne_nil hne
    rw [htext] at hcomment hlf hcr
    rcases hends c tail htext with rfl | rfl | rfl
    · exact absurd rfl (hcomment tail)
    · exact absurd rfl (hlf tail)
    · exact absurd rfl (hcr tail)

theorem statements_done {text : List Char} (h : skipBlanks text = []) (bound : ℕ) :
    statements (bound + 1) text = some [] := by
  unfold statements
  rw [h]

theorem LineEnd.length_pos {stop : List Char} (h : LineEnd stop) : 0 < stop.length := by
  cases h <;> decide

theorem LineReads.length_pos {Q : Statement → Prop} {line rest : List Char} (h : LineReads Q line)
    (hrest : Follows rest) : 0 < (line ++ rest).length := by
  obtain ⟨c, tail, s, next, hskip, -⟩ := h rest hrest
  rw [List.length_pos_iff]
  intro hnil
  rw [hnil] at hskip
  cases hskip

theorem Lines.reads {lines : List (List Char)} {text : List Char} (h : Lines lines text)
    {Qs : List (Statement → Prop)} (hlines : List.Forall₂ LineReads Qs lines) {bound : ℕ}
    (hbound : text.length < bound) :
    ∃ ss, statements bound text = some ss ∧ List.Forall₂ (fun Q s => Q s) Qs ss := by
  induction h generalizing Qs bound with
  | @last blanks comment hblanks hcomment =>
    cases hlines
    refine ⟨[], ?_, .nil⟩
    obtain ⟨bound, rfl⟩ := Nat.exists_eq_add_one_of_ne_zero (Nat.ne_zero_of_lt hbound)
    have hskip : skipBlanks (blanks ++ comment) = comment := by
      rw [skipBlanks_append hblanks, hcomment.endsLine_last.skipBlanks_eq]
    rcases eq_or_ne comment [] with rfl | hne
    · exact statements_done hskip bound
    · have hpos := List.length_pos_iff.2 hne
      rw [List.length_append] at hbound
      obtain ⟨bound, rfl⟩ := Nat.exists_eq_add_one_of_ne_zero (show bound ≠ 0 by omega)
      rw [statements_empty (hskip.symm ▸ hne) (hskip.symm ▸ hcomment.endsLine_last)
        (endLine_last hcomment hskip)]
      exact statements_done skipBlanks_nil bound
  | @lastLine line comment hcomment =>
    cases hlines with
    | cons hline hlines =>
      cases hlines
      have hends := hcomment.endsLine_last
      have hpos := hline.length_pos hends.follows
      obtain ⟨bound, rfl⟩ := Nat.exists_eq_add_of_le' (show 2 ≤ bound by omega)
      obtain ⟨s, hQ, hs⟩ := statements_line (bound + 1) hline hends.follows
        fun htext => endLine_last hcomment (htext.trans hends.skipBlanks_eq)
      refine ⟨[s], ?_, .cons hQ .nil⟩
      rw [hs, statements_done skipBlanks_nil bound]
      rfl
  | @empty lines blanks comment stop rest hblanks hcomment hstop h ih =>
    have hpos := hstop.length_pos
    have hends := hcomment.endsLine hstop rest
    simp only [List.append_assoc, List.length_append] at hbound ⊢
    obtain ⟨bound, rfl⟩ := Nat.exists_eq_add_one_of_ne_zero (Nat.ne_zero_of_lt hbound)
    have hskip : skipBlanks (blanks ++ (comment ++ (stop ++ rest))) =
        comment ++ (stop ++ rest) := by
      rw [skipBlanks_append hblanks, hends.skipBlanks_eq]
    have hne : comment ++ (stop ++ rest) ≠ [] := by
      rw [← List.length_pos_iff, List.length_append, List.length_append]
      omega
    rw [statements_empty (hskip.symm ▸ hne) (hskip.symm ▸ hends)
      (endLine_of_skip hcomment hstop hskip)]
    exact ih hlines (by omega)
  | @line line lines comment stop rest hcomment hstop h ih =>
    have hpos := hstop.length_pos
    have hends := hcomment.endsLine hstop rest
    simp only [List.append_assoc, List.length_append] at hbound ⊢
    obtain ⟨bound, rfl⟩ := Nat.exists_eq_add_one_of_ne_zero (Nat.ne_zero_of_lt hbound)
    cases hlines with
    | cons hline hlines =>
      obtain ⟨s, hQ, hs⟩ := statements_line bound hline hends.follows
        fun htext => endLine_of_skip hcomment hstop (htext.trans hends.skipBlanks_eq)
      have hlt : rest.length < bound := by omega
      obtain ⟨ss, hss, hQs⟩ := ih hlines hlt
      refine ⟨s :: ss, ?_, .cons hQ hQs⟩
      rw [hs, hss]
      rfl

theorem statements_mark (bound : ℕ) (rest : List Char) :
    statements (bound + 1) ('\ufeff' :: rest) = none := by
  rfl

theorem Lines.statementsOf {lines : List (List Char)} {text : List Char} (h : Lines lines text)
    {Qs : List (Statement → Prop)} (hlines : List.Forall₂ LineReads Qs lines) :
    ∃ ss, statementsOf? text = some ss ∧ List.Forall₂ (fun Q s => Q s) Qs ss := by
  obtain ⟨ss, hss, hQs⟩ := h.reads hlines (Nat.lt_succ_self _)
  refine ⟨ss, ?_, hQs⟩
  unfold statementsOf?
  dsimp only
  split
  case h_1 rest =>
    rw [statements_mark] at hss
    cases hss
  case h_2 => exact hss

end Lines

end LeibnizSieve.Toml
