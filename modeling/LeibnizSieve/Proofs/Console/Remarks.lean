import LeibnizSieve.Console.Session

/-! What a run says on its error stream, whatever a log filter lets through of it. Some texts are
said in any case, and events are offered to whoever listens. Main statement: what was said in two
steps in a row is said one after the other, so a run is known from its steps. -/

namespace LeibnizSieve.Console

open Log

inductive Remark where
  | text (said : String)
  | event (e : Event)

def Remark.shown (admits : Event → Bool) (look : Look) : Remark → String
  | text said => said
  | event e => if admits e then e.line look else ""

def transcript (admits : Event → Bool) (look : Look) (rs : List Remark) : String :=
  String.join (rs.map (Remark.shown admits look))

section Transcript

variable {admits admits' : Event → Bool} {look : Look} {rs : List Remark}

@[simp] theorem transcript_nil : transcript admits look [] = "" := rfl

@[simp] theorem transcript_singleton (r : Remark) :
    transcript admits look [r] = r.shown admits look := by
  simp [transcript]

@[simp] theorem transcript_append (a b : List Remark) :
    transcript admits look (a ++ b) = transcript admits look a ++ transcript admits look b := by
  simp [transcript, String.join_append]

end Transcript

namespace Session

/-- The way from a session to a later one, as the error stream has it. Nobody starts or stops
listening on it. -/
structure Tells (s s' : Session) (rs : List Remark) : Prop where
  listener : s'.listener = s.listener
  err : ∀ l, s.listener = some l → s'.err = s.err.write (transcript l.filter.admits l.look rs)

section Tells

variable {s s' s'' : Session} {a b : List Remark}

theorem Tells.trans (h : Tells s s' a) (h' : Tells s' s'' b) : Tells s s'' (a ++ b) where
  listener := h'.listener.trans h.listener
  err l hl := by
    rw [h'.err l (h.listener.trans hl), h.err l hl, Sink.write_write, transcript_append]

theorem tells_nothing (hlistener : s'.listener = s.listener) (herr : s'.err = s.err) :
    Tells s s' [] where
  listener := hlistener
  err l _ := by rw [herr, transcript_nil, Sink.write_empty]

theorem tells_complain (s : Session) (said : String) : Tells s (s.complain said) [.text said] where
  listener := rfl
  err l _ := by rw [complain_err, transcript_singleton, Remark.shown]

theorem tells_log (s : Session) (e : Event) : Tells s (s.log e) [.event e] where
  listener := rfl
  err l hl := by rw [log_err, transcript_singleton, Remark.shown, heard, hl]

end Tells

end Session

end LeibnizSieve.Console
