import LeibnizSieve.Console.Sink

/-! Bytes given to a stream that takes them in parts. Each call takes at least one byte and no more
than there is room for, and how many is up to the stream; once there is no room every call fails.
Main statements: whatever the parts, the stream ends as after one write of all the bytes, and the
caller learns of a failure just when they do not fit; and pieces written one after the other come to
the bytes they make up together. -/

namespace LeibnizSieve.Console.Sink

open Text

def take (s : Sink) (bytes : Bytes) : Sink :=
  ⟨s.room.after bytes, s.written ++ s.room.accepts bytes⟩

theorem take_append (s : Sink) (a b : Bytes) : s.take (a ++ b) = (s.take a).take b := by
  simp [take, Room.accepts_append, Room.after_append]

/-- The calls that offer bytes until all are taken or one call fails. -/
inductive Offers : Sink → Bytes → Sink → Bool → Prop where
  | done (s : Sink) : Offers s [] s true
  | refused {s : Sink} {bytes : Bytes} : s.room = some 0 → bytes ≠ [] → Offers s bytes s false
  | part {s s' : Sink} {ok : Bool} {first rest : Bytes} : first ≠ [] →
      s.room.fits first = true → Offers (s.take first) rest s' ok →
      Offers s (first ++ rest) s' ok

theorem fits_append {room : Room} {a : Bytes} (h : room.fits a = true) (b : Bytes) :
    room.fits (a ++ b) = (room.after a).fits b := by
  cases room with
  | none => rfl
  | some n =>
    simp only [Room.fits, decide_eq_true_eq] at h
    simp only [Room.fits, Room.after, Option.map_some, List.length_append]
    congr 1
    apply propext
    omega

theorem take_of_full {s : Sink} (h : s.room = some 0) (bytes : Bytes) : s.take bytes = s := by
  obtain ⟨room, written⟩ := s
  cases h
  simp [take, Room.accepts, Room.after]

theorem take_nil (s : Sink) : s.take [] = s := by
  obtain ⟨room, written⟩ := s
  cases room <;> simp [take, Room.accepts, Room.after]

theorem Offers.end_eq {s s' : Sink} {bytes : Bytes} {ok : Bool} (h : Offers s bytes s' ok) :
    s' = s.take bytes ∧ ok = s.room.fits bytes := by
  induction h with
  | done s =>
    refine ⟨(take_nil s).symm, ?_⟩
    cases s.room <;> simp [Room.fits]
  | @refused s bytes hroom hne =>
    refine ⟨(take_of_full hroom bytes).symm, ?_⟩
    rw [hroom]
    simpa [Room.fits] using hne
  | @part s s' ok first rest _ hfits _ ih =>
    rw [take_append, fits_append hfits]
    exact ih

theorem offers_self (s : Sink) (bytes : Bytes) :
    Offers s bytes (s.take bytes) (s.room.fits bytes) := by
  suffices hends : ∃ s' ok, Offers s bytes s' ok by
    obtain ⟨s', ok, h⟩ := hends
    obtain ⟨hs, hok⟩ := h.end_eq
    rw [← hs, ← hok]
    exact h
  by_cases hb : bytes = []
  · subst hb
    exact ⟨s, true, .done s⟩
  · cases hfits : s.room.fits bytes with
    | true =>
      have h := Offers.part hb hfits (.done (s.take bytes))
      rw [List.append_nil] at h
      exact ⟨s.take bytes, true, h⟩
    | false =>
      cases hroom : s.room with
      | none => simp [hroom, Room.fits] at hfits
      | some n =>
        rw [hroom] at hfits
        have hlt : n < bytes.length := by simpa [Room.fits] using hfits
        by_cases hn : n = 0
        · subst hn
          exact ⟨s, false, .refused hroom hb⟩
        · have hfirst : bytes.take n ≠ [] := by simp [hn, hb]
          have hrest : bytes.drop n ≠ [] := by
            simp only [ne_eq, List.drop_eq_nil_iff]
            omega
          have hfull : (s.take (bytes.take n)).room = some 0 := by
            simp only [take, hroom, Room.after, Option.map_some, List.length_take]
            congr 1
            omega
          have hin : s.room.fits (bytes.take n) = true := by
            simp only [hroom, Room.fits, decide_eq_true_eq]
            exact List.length_take_le n bytes
          have h := Offers.part hfirst hin (.refused hfull hrest)
          rw [List.take_append_drop] at h
          exact ⟨_, false, h⟩

/-- However a stream parts some bytes, it ends as after one write, and fails if they do not fit. -/
theorem offers_iff (s s' : Sink) (bytes : Bytes) (ok : Bool) :
    Offers s bytes s' ok ↔ s' = s.take bytes ∧ ok = s.room.fits bytes := by
  constructor
  · intro h
    exact h.end_eq
  · intro h
    rw [h.1, h.2]
    exact offers_self s bytes

/-- Pieces written one after the other, each of them in parts. After a refusal the stream has no
room left, so it makes no difference whether the pieces that follow are tried. -/
inductive Parted : Sink → List Bytes → Sink → Prop where
  | nil (s : Sink) : Parted s [] s
  | cons {s s' s'' : Sink} {piece : Bytes} {rest : List Bytes} {ok : Bool} :
      Offers s piece s' ok → Parted s' rest s'' → Parted s (piece :: rest) s''

theorem parted_iff {s s' : Sink} {pieces : List Bytes} :
    Parted s pieces s' ↔ s' = s.take pieces.flatten := by
  induction pieces generalizing s with
  | nil =>
    rw [List.flatten_nil, take_nil]
    constructor
    · rintro ⟨⟩
      rfl
    · rintro rfl
      exact .nil s'
  | cons piece rest ih =>
    rw [List.flatten_cons, take_append]
    constructor
    · rintro (_ | ⟨hpiece, hrest⟩)
      rw [← ((offers_iff ..).1 hpiece).1]
      exact ih.1 hrest
    · intro h
      exact .cons ((offers_iff ..).2 ⟨rfl, rfl⟩) (ih.2 h)

/-- A stream that was given some bytes from the start on: it holds as many of them as it has room
for, in whatever pieces they came and however it parted these. -/
structure Received (room : Room) (bytes : Bytes) (s : Sink) : Prop where
  written : s.written = room.accepts bytes
  parted : ∀ pieces s', pieces.flatten = bytes → Parted (empty room) pieces s' → s' = s

theorem received_take (room : Room) (bytes : Bytes) :
    Received room bytes ((empty room).take bytes) where
  written := rfl
  parted pieces s' hpieces h := by rw [parted_iff.1 h, hpieces]

theorem write_take (s : Sink) (bytes : Bytes) (text : String) :
    (s.take bytes).write text = s.take (bytes ++ utf8 text) :=
  (take_append s bytes (utf8 text)).symm

end LeibnizSieve.Console.Sink
