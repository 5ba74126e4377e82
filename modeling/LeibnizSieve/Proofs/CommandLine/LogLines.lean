import LeibnizSieve.Proofs.CommandLine.Output
import LeibnizSieve.Proofs.Config.LogLevel
import LeibnizSieve.Proofs.Console.Remarks
import LeibnizSieve.Proofs.Log.Environment

/-! Which log lines a run prints. What it has to say does not depend on who listens; the environment
and the configured level only choose among its events. Main statement: a directive in the
environment takes the place of the configured level, and without one that level chooses. -/

namespace LeibnizSieve.Report

open Text Console Files Log

section Delivery

def deliveryRemarks (program : String) (r : Request) (d : Rendering) (v : Volume) : List Remark :=
  match r.destination with
  | .errorStream => [.text (r.text d)]
  | .file path =>
    match (v.write (utf8 path) (utf8 (r.text d))).1 with
    | .ok () => []
    | .error e =>
      [.event (unwritten program path e), .text (String.join (warning path e)), .text (r.text d)]

theorem deliver_tells (program : String) (r : Request) (d : Rendering) (s : Session) :
    s.Tells (deliver program r d s) (deliveryRemarks program r d s.volume) := by
  unfold deliver deliveryRemarks
  cases r.destination with
  | errorStream => exact Session.tells_complain s _
  | file path =>
    dsimp only
    generalize s.volume.write (utf8 path) (utf8 (r.text d)) = written
    obtain ⟨attempt, v⟩ := written
    have hvolume : s.Tells { s with volume := v } [] := Session.tells_nothing rfl rfl
    cases attempt with
    | ok _ => exact hvolume
    | error e =>
      rw [afterFile, Session.complainPieces_eq]
      exact hvolume.trans <| (Session.tells_log _ _).trans <|
        (Session.tells_complain _ _).trans (Session.tells_complain _ _)

def reportRemarks (program : String) (request : Option Request)
    (rendering : Option (Elapsed → Rendering)) (elapsed : Elapsed) (v : Volume) : List Remark :=
  match request, rendering with
  | some r, some rendering => deliveryRemarks program r (rendering elapsed) v
  | _, _ => []

theorem report_tells (program : String) (request : Option Request) (elapsed : Elapsed)
    (c : Conclusion) : c.session.Tells (c.report program request elapsed).1
      (reportRemarks program request c.rendering elapsed c.session.volume) := by
  obtain ⟨session, rendering, code⟩ := c
  cases request with
  | none => exact Session.tells_nothing rfl rfl
  | some r =>
    cases rendering with
    | none => exact Session.tells_nothing rfl rfl
    | some rendering => exact deliver_tells program r (rendering elapsed) session

theorem target_of_delivery {program : String} {r : Request} {d : Rendering} {v : Volume}
    {ev : Event} (h : Remark.event ev ∈ deliveryRemarks program r d v) :
    ev.target = program ++ "::report" := by
  unfold deliveryRemarks at h
  split at h
  · cases h with
    | tail _ hnil => cases hnil
  · next path _ =>
    split at h
    · cases h
    · next e _ =>
      have hev : ev = unwritten program path e := by simpa using h
      rw [hev, unwritten]

end Delivery

end LeibnizSieve.Report

namespace LeibnizSieve.CommandLine

open Text Console Files Log Config Report

/-- What a program says in a run, and what it can report afterwards. The choice made in its settings
and the room on its output stream decide both. -/
structure Script (α : Type) where
  remarks : Words → α → Room → List Remark
  rendering : α → Room → Option (Elapsed → Rendering)

def answerRemarks : Answer → List Remark
  | .ok _ => []
  | .error u => [.text (u.message ++ "\n")]

def asked : Answer → Option Report.Request
  | .ok r => r
  | .error _ => none

namespace Program

variable {α : Type}

def answer (p : Program α) (e : Surroundings) : Answer :=
  Report.Request.ofVariable e.reportVariable p.requestOf

def whole (p : Program α) (script : Script α) (e : Surroundings) (elapsed : Elapsed) (choice : α) :
    List Remark :=
  answerRemarks (p.answer e) ++ (script.remarks e.words choice e.outRoom ++
    reportRemarks p.name (asked (p.answer e)) (script.rendering choice e.outRoom) elapsed e.volume)

section Runs

variable {p : Program α} {script : Script α} {e : Surroundings} {settings : Settings α}
  {directive : Directive} {path : Option Bytes} {filter : Filter} {said : String}

theorem request_tells (e : Surroundings) (s : Session) :
    s.Tells (p.request e s).1 (answerRemarks (p.answer e)) := by
  unfold request answer answerRemarks
  cases Report.Request.ofVariable e.reportVariable p.requestOf with
  | ok r => exact Session.tells_nothing rfl rfl
  | error u => exact Session.tells_complain s _

theorem request_asked (e : Surroundings) (s : Session) :
    (p.request e s).2 = asked (p.answer e) := by
  unfold request answer asked
  cases Report.Request.ofVariable e.reportVariable p.requestOf <;> rfl

theorem request_volume (e : Surroundings) (s : Session) : (p.request e s).1.volume = s.volume := by
  unfold request
  cases Report.Request.ofVariable e.reportVariable p.requestOf <;> rfl

/-- A program keeps to a script if it does so in every session. It speaks in its own name. -/
structure Follows (p : Program α) (script : Script α) : Prop where
  tells : ∀ words choice (s : Session),
    s.Tells (p.conclude words choice s).session (script.remarks words choice s.out.room)
  rendering : ∀ words choice s,
    (p.conclude words choice s).rendering = script.rendering choice s.out.room
  volume : ∀ words choice s, (p.conclude words choice s).session.volume = s.volume
  own : ∀ words choice room ev, Remark.event ev ∈ script.remarks words choice room →
    ev.target = p.name

theorem Follows.whole (h : p.Follows script) (e : Surroundings) (elapsed : Elapsed) (choice : α)
    (filter : Filter) (said : String) : (listen e filter said).Tells
      ((p.start e choice (listen e filter said)).1.report p.name
        (p.start e choice (listen e filter said)).2 elapsed).1
      (p.whole script e elapsed choice) := by
  have hrequest := p.request_tells e (listen e filter said)
  have hconclude := h.tells e.words choice (p.request e (listen e filter said)).1
  have hreport := report_tells p.name (p.request e (listen e filter said)).2 elapsed
    (p.conclude e.words choice (p.request e (listen e filter said)).1)
  rw [request_out, listen_out] at hconclude
  rw [request_asked, h.rendering, h.volume, request_volume, request_out, listen_out] at hreport
  rw [start, Program.whole, request_asked]
  exact hrequest.trans (hconclude.trans hreport)

theorem Usable.err (hu : p.Usable e.volume path settings directive) (h : p.Follows script)
    (hfilter : filterOfEnvironment directive e.logVariable = (some filter, said))
    (elapsed : Elapsed) : (p.runFrom e elapsed path).err =
      utf8 (said ++ transcript filter.admits e.look (p.whole script e elapsed settings.choice)) := by
  have herr := (h.whole e elapsed settings.choice filter said).err _ rfl
  rw [hu.runFrom (begin_ok hfilter)]
  dsimp only
  rw [herr, listen]
  exact congrArg Sink.written (Sink.write_write _ _ _)

theorem Follows.target (h : p.Follows script) {elapsed : Elapsed} {choice : α} {ev : Event}
    (hev : Remark.event ev ∈ p.whole script e elapsed choice) :
    ev.target = p.name ∨ ev.target = p.name ++ "::report" := by
  rw [Program.whole, List.mem_append, List.mem_append] at hev
  rcases hev with hrequest | hown | hreport
  · unfold answerRemarks at hrequest
    split at hrequest <;> simp at hrequest
  · exact .inl (h.own e.words choice e.outRoom ev hown)
  · unfold reportRemarks at hreport
    split at hreport
    · exact .inr (target_of_delivery hreport)
    · cases hreport

theorem Usable.configured (hu : p.Usable e.volume path settings directive)
    (htarget : Directive.IsTarget p.name.toList) :
    ∃ level, Directive.Written settings.level.toList level ∧
      directive = ⟨level, some p.name, none, []⟩ := by
  obtain ⟨-, -, -, hparse⟩ := hu
  exact (logDirective_iff htarget).1 (logDirective_eq_ok.2 hparse)

end Runs

end Program

end LeibnizSieve.CommandLine

namespace LeibnizSieve.Leibniz

open Text Console Log Report CommandLine

def script (iterations : UInt64) : Script Bool where
  remarks words withPrompt room :=
    [.event (computing iterations), .event (summed iterations (leibnizPi iterations))] ++
      if room.fits (utf8 (shown iterations withPrompt)) then []
      else [.text (words.stopped .outputRefused)]
  rendering withPrompt room :=
    if room.fits (utf8 (shown iterations withPrompt)) then
      some fun elapsed => (ReportData.mk iterations (leibnizPi iterations) elapsed).rendering
    else none

variable (words : Words) (iterations : UInt64) (withPrompt : Bool) (s : Session)

theorem conclude_volume :
    (conclude words iterations withPrompt s).session.volume = s.volume := by
  rw [conclude]
  split <;> cases withPrompt <;> rfl

end LeibnizSieve.Leibniz

namespace LeibnizSieve.Sieve

open Text Console Log Report CommandLine

def script (capacity : ℕ) (limit : UInt64) : Script Policy where
  remarks _ policy _ :=
    match sieve capacity limit with
    | .ok _ => [.event (sieving limit), .event (sieved limit)]
    | .error e =>
      [.event (sieving limit), .event (abortedEvent limit e), .text (complaint policy e)]
  rendering _ _ :=
    match sieve capacity limit with
    | .ok table => some fun elapsed =>
      ReportData.rendering ⟨limit, .done, some (UInt64.ofNat table.count), elapsed⟩
    | .error _ => some fun elapsed => ReportData.rendering ⟨limit, .aborted, none, elapsed⟩

variable (words : Words) (capacity : ℕ) (limit : UInt64) (policy : Policy) (s : Session)

end LeibnizSieve.Sieve

namespace LeibnizSieve.CommandLine.Program

open Text Files Log Report Config

end LeibnizSieve.CommandLine.Program
