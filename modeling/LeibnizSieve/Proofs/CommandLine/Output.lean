import LeibnizSieve.Proofs.CommandLine.Refusal
import LeibnizSieve.Proofs.Leibniz.Outcome
import LeibnizSieve.Proofs.Log.Environment
import LeibnizSieve.Proofs.Sieve.Outcome

/-! What a run shows on its output stream, and its exit status. Log lines, notices, warnings and
reports go elsewhere, so the computation alone decides both. Main statement: two runs with usable
settings and a log variable that is read to its end differ in them only if the series program is to
show its prompt in one and not in the other; neither the environment nor the files count. A log
variable that is not read to its end stops the program before it shows anything. -/

namespace LeibnizSieve.CommandLine

open Text Console Files Config Log Report

namespace Program

section Shows

variable {α : Type} {p : Program α} {e : Surroundings} {path : Option Bytes}
  {settings : Settings α} {directive : Directive} {text : String} {status : Room → ℕ}

@[simp] theorem request_out (e : Surroundings) (s : Session) :
    (p.request e s).1.out = s.out := by
  rw [request]
  split <;> rfl

@[simp] theorem listen_out (e : Surroundings) (filter : Filter) (notices : String) :
    (listen e filter notices).out = Sink.empty e.outRoom := rfl

/-- In every session, the computation offers a text to the output stream and ends with a status
that depends on the room there. -/
def Shows (p : Program α) (choice : α) (text : String) (status : Room → ℕ) : Prop :=
  ∀ words s, (p.conclude words choice s).session.out = s.out.write text ∧
    (p.conclude words choice s).code = status s.out.room

theorem Usable.shows (h : p.Usable e.volume path settings directive)
    (hread : ReadToEnd e.logVariable) (hshows : p.Shows settings.choice text status)
    (elapsed : Elapsed) :
    (p.runFrom e elapsed path).out = e.outRoom.accepts (utf8 text) ∧
      (p.runFrom e elapsed path).code = status e.outRoom := by
  obtain ⟨filter, notices, hfilter⟩ := exists_filter hread directive
  rw [h.runFrom (begin_ok hfilter)]
  obtain ⟨hout, hcode⟩ := hshows e.words (p.request e (listen e filter notices)).1
  rw [request_out, listen_out] at hout hcode
  constructor
  · simp only [report_out, start, hout, Sink.written_empty_write]
  · simp only [report_code, start, hcode]
    rfl

theorem Usable.unreadable (h : p.Usable e.volume path settings directive)
    (hread : ¬ ReadToEnd e.logVariable) (elapsed : Elapsed) :
    ∃ text, e.logVariable = some (utf8 text) ∧ p.runFrom e elapsed path =
      ⟨stoppedStatus, [], utf8 (String.join (notices text) ++ e.words.stopped .cutCharacter),
        e.volume⟩ := by
  unfold ReadToEnd at hread
  push Not at hread
  obtain ⟨text, htext, part, hpart, hstops⟩ := hread
  have hfilter : filterOfEnvironment directive e.logVariable =
      (none, String.join (notices text)) := by
    rw [htext, filterOfEnvironment_stopped ⟨part, hpart, hstops⟩]
  exact ⟨text, htext, h.stopped (begin_error hfilter) elapsed⟩

end Shows

end Program

end LeibnizSieve.CommandLine
