import LeibnizSieve.Log.Directive
import Mathlib.Data.List.DropRight

/-! Offsets of a scan. They count from the first character that is no blank, and the pieces are cut
out of the whole text at them. Main statement: a text that begins with such a character, and a text
of single bytes, are never cut inside a character, so each of them is a directive or refused as
none. -/

namespace LeibnizSieve.Log.Directive

open Text

section Cuts

def width : List Char → ℕ
  | [] => 0
  | c :: text => c.utf8Size + width text

@[simp] theorem width_nil : width [] = 0 := rfl

@[simp] theorem width_cons (c : Char) (text : List Char) :
    width (c :: text) = c.utf8Size + width text := rfl

@[simp] theorem width_append (a b : List Char) : width (a ++ b) = width a + width b := by
  induction a with
  | nil => rw [List.nil_append, width_nil, Nat.zero_add]
  | cons c a ih => rw [List.cons_append, width_cons, width_cons, ih, Nat.add_assoc]

theorem eq_nil_of_width {text : List Char} (h : width text = 0) : text = [] := by
  cases text with
  | nil => rfl
  | cons c rest =>
    have hpos := c.utf8Size_pos
    rw [width_cons] at h
    omega

theorem cut_zero (text : List Char) : cut? text 0 = some ([], text) := by
  cases text <;> rfl

theorem cut_cons (c : Char) (rest : List Char) (offset : ℕ) :
    cut? (c :: rest) (c.utf8Size + offset) =
      (cut? rest offset).map fun (before, after) => (c :: before, after) := by
  obtain ⟨n, hn⟩ := Nat.exists_eq_succ_of_ne_zero c.utf8Size_pos.ne'
  have hsum : c.utf8Size + offset = n + offset + 1 := by omega
  rw [hsum, cut?, if_pos (by omega), ← hsum, Nat.add_sub_cancel_left]

theorem cut_append (a b : List Char) : cut? (a ++ b) (width a) = some (a, b) := by
  induction a with
  | nil => exact cut_zero b
  | cons c a ih => rw [width_cons, List.cons_append, cut_cons, ih, Option.map_some]

theorem tail_append (a b : List Char) : tail (a ++ b) (width a) = .ok b := by
  rw [tail, cut_append]
  rfl

theorem piece_append (a b c : List Char) :
    piece (a ++ (b ++ c)) (width a) (width a + width b) = .ok b := by
  rw [piece, tail_append, Nat.add_sub_cancel_left]
  simp only [bind, Except.bind, cut_append]
  rfl

theorem piece_start (a b : List Char) : piece (a ++ b) 0 (width a) = .ok a := by
  simpa using piece_append [] a b

def IsBoundary (text : List Char) (offset : ℕ) : Prop :=
  ∃ before after, text = before ++ after ∧ width before = offset

variable {text : List Char} {start stop : ℕ}

theorem exists_tail (h : IsBoundary text start) : ∃ after, tail text start = .ok after := by
  obtain ⟨before, after, rfl, rfl⟩ := h
  exact ⟨after, tail_append before after⟩

theorem exists_piece (hstart : IsBoundary text start) (hstop : IsBoundary text stop)
    (hle : start ≤ stop) : ∃ between, piece text start stop = .ok between := by
  obtain ⟨a, b, rfl, rfl⟩ := hstart
  obtain ⟨a', b', heq, rfl⟩ := hstop
  rcases List.append_eq_append_iff.1 heq with ⟨between, rfl, rfl⟩ | ⟨beyond, rfl, rfl⟩
  · rw [width_append]
    exact ⟨between, piece_append a between b'⟩
  · have hbeyond : beyond = [] := eq_nil_of_width (by rw [width_append] at hle; omega)
    subst hbeyond
    exact ⟨[], by simpa using piece_append a' [] b⟩

end Cuts

section Settling

variable {α β : Type} {x : Scanned α} {P Q : α → Prop}

/-- A scan that is not stopped, and gives only what satisfies a property. -/
structure Settles (x : Scanned α) (P : α → Prop) : Prop where
  goes : x ≠ .error .stopped
  gives : ∀ a, x = .ok a → P a

theorem settles_ok {a : α} (h : P a) : Settles (.ok a : Scanned α) P where
  goes := nofun
  gives a' ha := by
    cases ha
    exact h

theorem settles_refuse (e : DirectiveError) (P : α → Prop) : Settles (refuse e) P where
  goes := nofun
  gives := nofun

theorem Settles.bind {R : β → Prop} {f : α → Scanned β} (h : Settles x P)
    (hf : ∀ a, P a → Settles (f a) R) : Settles (x >>= f) R := by
  obtain ⟨hgoes, hgives⟩ := h
  cases x with
  | ok a => exact hf a (hgives a rfl)
  | error fault =>
    cases fault with
    | refused e => exact settles_refuse e R
    | stopped => exact absurd rfl hgoes

theorem settles_of_exists (h : ∃ a, x = .ok a) : Settles x fun _ => True := by
  obtain ⟨a, rfl⟩ := h
  exact settles_ok trivial

theorem settles_levelOf (text : List Char) : Settles (levelOf text) fun _ => True := by
  unfold levelOf
  split
  · exact settles_ok trivial
  · split
    · exact settles_ok trivial
    · exact settles_refuse _ _

theorem settles_withField (d : Directive) (text : List Char) :
    Settles (d.withField text) fun _ => True := by
  have hfield : Settles (fieldOf text) fun _ => True := by
    unfold fieldOf
    dsimp only
    split
    · exact settles_ok trivial
    · split
      · exact settles_ok trivial
      · exact settles_refuse _ _
  unfold withField
  split
  · exact settles_refuse _ _
  · exact hfield.bind fun _ _ => settles_ok trivial

end Settling

section Alignment

/-- Whatever a scan has gone over, the whole text can be cut at that offset. -/
def Aligned (text : List Char) : Prop :=
  ∀ gone, gone <+: trimBlanks text → IsBoundary text (width gone)

theorem aligned_of_head {text : List Char} (h : ∀ c ∈ text.head?, isBlank c = false) :
    Aligned text := by
  have htrim : trimBlanks text <+: text := by
    have hfront : text.dropWhile isBlank = text := by
      cases text with
      | nil => rfl
      | cons c rest =>
        have hc := h c rfl
        exact List.dropWhile_cons_of_neg (by simp [hc])
    have hprefix : (text.dropWhile isBlank).rdropWhile isBlank <+: text.dropWhile isBlank :=
      List.rdropWhile_prefix ..
    rw [hfront] at hprefix
    rwa [trimBlanks, hfront]
  intro gone hgone
  obtain ⟨after, hafter⟩ := hgone.trans htrim
  exact ⟨gone, after, hafter.symm, rfl⟩

end Alignment

section Scanning

variable {text gone : List Char} {d : Directive} {state : ScanState} {c : Char}

def PointsInto (gone : List Char) : ScanState → Prop
  | .levelOrTarget start | .span start | .field start | .level start =>
    ∃ before, before <+: gone ∧ width before = start
  | .start | .fields | .target | .complete => True

theorem PointsInto.append (h : PointsInto gone state) (more : List Char) :
    PointsInto (gone ++ more) state := by
  have hlonger {start : ℕ} : (∃ before, before <+: gone ∧ width before = start) →
      ∃ before, before <+: gone ++ more ∧ width before = start := by
    rintro ⟨before, hbefore, hwidth⟩
    exact ⟨before, hbefore.trans (List.prefix_append _ _), hwidth⟩
  cases state with
  | levelOrTarget start => exact hlonger h
  | span start => exact hlonger h
  | field start => exact hlonger h
  | level start => exact hlonger h
  | start => trivial
  | fields => trivial
  | target => trivial
  | complete => trivial

theorem settles_tail (ha : Aligned text) (hgone : gone <+: trimBlanks text) {start : ℕ}
    (h : ∃ before, before <+: gone ∧ width before = start) :
    Settles (tail text start) fun _ => True := by
  obtain ⟨before, hbefore, rfl⟩ := h
  exact settles_of_exists (exists_tail (ha before (hbefore.trans hgone)))

theorem settles_piece (ha : Aligned text) (hgone : gone <+: trimBlanks text) {start : ℕ}
    (h : ∃ before, before <+: gone ∧ width before = start) :
    Settles (piece text start (width gone)) fun _ => True := by
  obtain ⟨before, hbefore, rfl⟩ := h
  have hle : width before ≤ width gone := by
    obtain ⟨after, rfl⟩ := hbefore
    rw [width_append]
    omega
  exact settles_of_exists
    (exists_piece (ha before (hbefore.trans hgone)) (ha gone hgone) hle)

/-- One character further, the state still points into what was gone over. -/
theorem settles_scanChar (ha : Aligned text) (hgone : gone ++ [c] <+: trimBlanks text)
    (hs : PointsInto gone state) : Settles (scanChar text d state (width gone) c)
      fun (_, state') => PointsInto (gone ++ [c]) state' := by
  have hbefore : gone <+: trimBlanks text := (List.prefix_append _ _).trans hgone
  have hhere : ∃ before, before <+: gone ++ [c] ∧ width before = width gone :=
    ⟨gone, List.prefix_append _ _, rfl⟩
  have hbehind (hc : c.utf8Size = 1) :
      ∃ before, before <+: gone ++ [c] ∧ width before = width gone + 1 :=
    ⟨gone ++ [c], List.prefix_refl _, by simp [hc]⟩
  have hkept := hs.append [c]
  cases state with
  | start =>
    rw [scanChar]
    split_ifs with hopen
    · exact settles_ok (hbehind (by rw [hopen]; rfl))
    · exact settles_ok hhere
    · exact settles_refuse _ _
  | levelOrTarget start =>
    rw [scanChar]
    split_ifs with hequals hopen
    · exact (settles_piece ha hbefore hs).bind fun _ _ =>
        settles_ok (hbehind (by rw [hequals]; rfl))
    · exact (settles_piece ha hbefore hs).bind fun _ _ =>
        settles_ok (hbehind (by rw [hopen]; rfl))
    · exact (settles_tail ha hbefore hs).bind fun _ _ => settles_ok trivial
    · exact settles_ok hkept
  | target =>
    rw [scanChar]
    split_ifs with hequals
    · exact settles_ok (hbehind (by rw [hequals]; rfl))
    · exact settles_refuse _ _
  | span start =>
    rw [scanChar]
    split_ifs with hclose hbrace
    · exact (settles_piece ha hbefore hs).bind fun _ _ => settles_ok trivial
    · exact (settles_piece ha hbefore hs).bind fun _ _ =>
        settles_ok (hbehind (by rw [hbrace]; rfl))
    · exact settles_ok hkept
  | field start =>
    rw [scanChar]
    split_ifs with hbrace hcomma
    · exact (settles_piece ha hbefore hs).bind fun _ _ =>
        (settles_withField _ _).bind fun _ _ => settles_ok trivial
    · exact (settles_piece ha hbefore hs).bind fun _ _ =>
        (settles_withField _ _).bind fun _ _ => settles_ok (hbehind (by rw [hcomma]; rfl))
    · exact settles_ok hkept
  | fields =>
    rw [scanChar]
    split_ifs
    · exact settles_ok trivial
    · exact settles_refuse _ _
  | level start =>
    rw [scanChar]
    split_ifs
    · exact (settles_piece ha hbefore hs).bind fun _ _ =>
        (settles_levelOf _).bind fun _ _ => settles_ok trivial
    · exact settles_ok hkept
  | complete => exact settles_refuse _ _

theorem settles_scan (ha : Aligned text) (rest : List Char) (hgone : gone ++ rest = trimBlanks text)
    (hs : PointsInto gone state) : Settles (scan text d state (width gone) rest)
      fun (_, state') => PointsInto (trimBlanks text) state' := by
  induction rest generalizing gone d state with
  | nil =>
    rw [List.append_nil] at hgone
    rw [← hgone]
    exact settles_ok hs
  | cons c rest ih =>
    have hnext : (gone ++ [c]) ++ rest = trimBlanks text := by simpa using hgone
    have hwidth : width gone + c.utf8Size = width (gone ++ [c]) := by simp
    rw [scan]
    refine (settles_scanChar ha ⟨rest, hnext⟩ hs).bind ?_
    rintro ⟨d', state'⟩ hs'
    dsimp only
    rw [hwidth]
    exact ih hnext hs'

theorem settles_finish (ha : Aligned text) (hs : PointsInto (trimBlanks text) state) :
    Settles (finish text d state) fun _ => True := by
  have htail {start : ℕ} (h : ∃ before, before <+: trimBlanks text ∧ width before = start) :
      Settles (tail text start) fun _ => True :=
    settles_tail ha (List.prefix_refl _) h
  cases state with
  | levelOrTarget start => exact (htail hs).bind fun _ _ => settles_ok trivial
  | level start =>
    exact (htail hs).bind fun _ _ => (settles_levelOf _).bind fun _ _ => settles_ok trivial
  | target => exact settles_ok trivial
  | complete => exact settles_ok trivial
  | start => exact settles_refuse _ _
  | span start => exact settles_refuse _ _
  | field start => exact settles_refuse _ _
  | fields => exact settles_refuse _ _

/-- A text stops the program that reads it as a directive. -/
def Stops (text : List Char) : Prop := parse text = .error .stopped

instance (text : List Char) : Decidable (Stops text) :=
  inferInstanceAs (Decidable (parse text = .error .stopped))

theorem not_stops_of_aligned (ha : Aligned text) : ¬ Stops text := by
  have hscan : Settles (scan text everything .start (width []) (trimBlanks text)) _ :=
    settles_scan ha (trimBlanks text) rfl trivial
  exact (hscan.bind fun _ hs => settles_finish ha hs).goes

theorem not_stops_of_head (h : ∀ c ∈ text.head?, isBlank c = false) : ¬ Stops text :=
  not_stops_of_aligned (aligned_of_head h)

/-- A wide blank in front shifts the end of the target into the blank itself. -/
example : Stops "\u3000a=info".toList := by
  decide

end Scanning

end LeibnizSieve.Log.Directive
