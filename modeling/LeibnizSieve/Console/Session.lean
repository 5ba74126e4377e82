import LeibnizSieve.Files.Volume
import LeibnizSieve.Log.Filter

/-!
What a run can change: two streams and the files. Log lines go to the error stream, if a filter
listens and lets them pass. Main statements: each operation leaves the other parts alone.
-/

namespace LeibnizSieve.Console

open Log Files

structure Listener where
  filter : Filter
  look : Look

/-- The state of a run. Without a listener events are lost. -/
structure Session where
  out : Sink
  err : Sink
  volume : Volume
  listener : Option Listener

namespace Session

def print (s : Session) (text : String) : Session :=
  { s with out := s.out.write text }

def accepts (s : Session) (text : String) : Bool :=
  s.out.room.fits (Text.utf8 text)

def complain (s : Session) (text : String) : Session :=
  { s with err := s.err.write text }

def printPieces (s : Session) (pieces : List String) : Session :=
  { s with out := s.out.writePieces pieces }

def complainPieces (s : Session) (pieces : List String) : Session :=
  { s with err := s.err.writePieces pieces }

def heard (s : Session) (e : Event) : String :=
  match s.listener with
  | some l => if l.filter.admits e then e.line l.look else ""
  | none => ""

def log (s : Session) (e : Event) : Session :=
  s.complain (s.heard e)

@[simp] theorem printPieces_eq (s : Session) (pieces : List String) :
    s.printPieces pieces = s.print (String.join pieces) := by
  rw [printPieces, Sink.writePieces_eq]
  rfl

@[simp] theorem complainPieces_eq (s : Session) (pieces : List String) :
    s.complainPieces pieces = s.complain (String.join pieces) := by
  rw [complainPieces, Sink.writePieces_eq]
  rfl

@[simp] theorem print_out (s : Session) (text : String) :
    (s.print text).out = s.out.write text := rfl

@[simp] theorem print_err (s : Session) (text : String) : (s.print text).err = s.err := rfl

@[simp] theorem print_volume (s : Session) (text : String) :
    (s.print text).volume = s.volume := rfl

@[simp] theorem print_listener (s : Session) (text : String) :
    (s.print text).listener = s.listener := rfl

@[simp] theorem complain_out (s : Session) (text : String) : (s.complain text).out = s.out := rfl

@[simp] theorem complain_err (s : Session) (text : String) :
    (s.complain text).err = s.err.write text := rfl

@[simp] theorem complain_volume (s : Session) (text : String) :
    (s.complain text).volume = s.volume := rfl

@[simp] theorem complain_listener (s : Session) (text : String) :
    (s.complain text).listener = s.listener := rfl

theorem complain_complain (s : Session) (a b : String) :
    (s.complain a).complain b = s.complain (a ++ b) := by
  simp [complain, Sink.write_write]

@[simp] theorem log_out (s : Session) (e : Event) : (s.log e).out = s.out := rfl

@[simp] theorem log_err (s : Session) (e : Event) : (s.log e).err = s.err.write (s.heard e) := rfl

@[simp] theorem log_volume (s : Session) (e : Event) : (s.log e).volume = s.volume := rfl

@[simp] theorem log_listener (s : Session) (e : Event) : (s.log e).listener = s.listener := rfl

theorem heard_unheard {s : Session} (h : s.listener = none) (e : Event) : s.heard e = "" := by
  rw [heard, h]

end Session

end LeibnizSieve.Console
