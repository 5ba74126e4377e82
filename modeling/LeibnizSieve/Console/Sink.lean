import LeibnizSieve.Text.Utf8

/-!
Streams that accept so many bytes in total and refuse the rest. A write that does not fit is cut
at the last byte that does; the caller is not stopped. Main statement: two writes in a row leave
what one write of both texts leaves.
-/

namespace LeibnizSieve.Console

open Text

/-- How many more bytes are accepted; none when there is no bound. -/
abbrev Room := Option Nat

namespace Room

def accepts (room : Room) (bytes : Bytes) : Bytes :=
  match room with
  | none => bytes
  | some n => bytes.take n

def after (room : Room) (bytes : Bytes) : Room :=
  room.map (· - bytes.length)

def fits (room : Room) (bytes : Bytes) : Bool :=
  match room with
  | none => true
  | some n => bytes.length ≤ n

theorem accepts_of_fits {room : Room} {bytes : Bytes} (h : room.fits bytes = true) :
    room.accepts bytes = bytes := by
  cases room with
  | none => rfl
  | some n => exact List.take_of_length_le (by simpa [fits] using h)

theorem accepts_of_not_fits {room : Room} {bytes : Bytes} (h : room.fits bytes = false) :
    ∃ n < bytes.length, room.accepts bytes = bytes.take n := by
  cases room with
  | none => simp [fits] at h
  | some n => exact ⟨n, by simpa [fits] using h, rfl⟩

theorem accepts_append (room : Room) (a b : Bytes) :
    room.accepts (a ++ b) = room.accepts a ++ (room.after a).accepts b := by
  cases room with
  | none => rfl
  | some n => simp [accepts, after, List.take_append]

theorem after_append (room : Room) (a b : Bytes) :
    room.after (a ++ b) = (room.after a).after b := by
  cases room with
  | none => rfl
  | some n =>
    have h : n - (a ++ b).length = n - a.length - b.length := by
      rw [List.length_append]
      omega
    exact congrArg some h

theorem fits_append (room : Room) (a : Bytes) {b : Bytes} (h : b ≠ []) :
    room.fits (a ++ b) = (room.after a).fits b := by
  cases room with
  | none => rfl
  | some n =>
    have hpos := List.length_pos_iff.2 h
    simp only [fits, after, Option.map_some, List.length_append]
    congr 1
    apply propext
    omega

end Room

/-- What a stream has accepted so far, and how much more it will. -/
structure Sink where
  room : Room
  written : Bytes
  deriving DecidableEq, Repr

namespace Sink

def empty (room : Room) : Sink := ⟨room, []⟩

def write (s : Sink) (text : String) : Sink :=
  ⟨s.room.after (utf8 text), s.written ++ s.room.accepts (utf8 text)⟩

@[simp] theorem written_empty_write (room : Room) (text : String) :
    ((empty room).write text).written = room.accepts (utf8 text) := rfl

theorem write_write (s : Sink) (a b : String) : (s.write a).write b = s.write (a ++ b) := by
  simp [write, Room.accepts_append, Room.after_append]

def writePieces (s : Sink) : List String → Sink
  | [] => s
  | piece :: rest =>
    if s.room.fits (utf8 piece) then (s.write piece).writePieces rest else s.write piece

theorem write_of_not_fits {s : Sink} {a : String} (h : s.room.fits (utf8 a) = false) (b : String) :
    s.write (a ++ b) = s.write a := by
  obtain ⟨room, written⟩ := s
  cases room with
  | none => simp [Room.fits] at h
  | some n =>
    have hn : n < (utf8 a).length := by simpa [Room.fits] using h
    have ha : n - (utf8 a).length = 0 := by omega
    have hab : n - (utf8 a ++ utf8 b).length = 0 := by
      rw [List.length_append]
      omega
    simp only [write, Room.accepts, Room.after, Option.map_some, utf8_append, ha, hab]
    rw [List.take_append_of_le_length (by omega)]

@[simp] theorem write_empty (s : Sink) : s.write "" = s := by
  obtain ⟨room, written⟩ := s
  cases room <;> simp [write, Room.accepts, Room.after]

theorem writePieces_eq (s : Sink) (pieces : List String) :
    s.writePieces pieces = s.write (String.join pieces) := by
  induction pieces generalizing s with
  | nil => simp [writePieces]
  | cons piece rest ih =>
    rw [writePieces, String.join_cons]
    cases h : s.room.fits (utf8 piece) with
    | true => rw [if_pos rfl, ih, write_write]
    | false => rw [if_neg (by simp), write_of_not_fits h]

end Sink

end LeibnizSieve.Console
