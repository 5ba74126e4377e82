import LeibnizSieve.Leibniz.Run
import LeibnizSieve.Proofs.Console.PartialWrites
import LeibnizSieve.Proofs.Files.Writing
import LeibnizSieve.Sieve.Run

/-! Where a report goes. Main statement: for both programs, all of it goes to one place, to the
error stream or to the file asked for, and from the file to the error stream when the file fails,
behind a warning. -/

namespace LeibnizSieve.Report

open Text Console Files Log

theorem join_warning (path : String) (e : FileError) :
    String.join (warning path e) =
      "Warning: could not write report to " ++ path ++ ": " ++ e.message ++ "\n" := by
  simp [warning, String.join_cons, String.append_assoc]

section Deliver

variable {program path : String} {r : Request} {d : Rendering} {s : Session}

theorem deliver_stream (h : r.destination = .errorStream) :
    deliver program r d s = s.complain (r.text d) := by
  rw [deliver, h]

theorem deliver_file {v : Volume} (h : r.destination = .file path)
    (hw : s.volume.write (utf8 path) (utf8 (r.text d)) = (.ok (), v)) :
    deliver program r d s = { s with volume := v } := by
  rw [deliver, h]
  simp only [hw, afterFile]

theorem deliver_refused {v : Volume} {e : FileError} (h : r.destination = .file path)
    (hw : s.volume.write (utf8 path) (utf8 (r.text d)) = (.error e, v)) :
    deliver program r d s = { s with volume := v }.complain
      (s.heard (unwritten program path e) ++ String.join (warning path e) ++ r.text d) := by
  rw [deliver, h]
  simp only [hw, afterFile, Session.complainPieces_eq, Session.log, Session.complain_complain]
  rfl

theorem deliver_volume (h : r.destination = .file path) :
    (deliver program r d s).volume = (s.volume.write (utf8 path) (utf8 (r.text d))).2 := by
  cases hw : s.volume.write (utf8 path) (utf8 (r.text d)) with
  | mk attempt v =>
    cases attempt with
    | ok _ => rw [deliver_file h hw]
    | error e => rw [deliver_refused h hw, Session.complain_volume]

theorem deliver_err (program : String) (r : Request) (d : Rendering) (v : Volume)
    (listener : Option Listener) :
    ∃ text, ∀ out err, (deliver program r d ⟨out, err, v, listener⟩).err = err.write text := by
  cases hr : r.destination with
  | errorStream =>
    refine ⟨r.text d, ?_⟩
    intro out err
    rw [deliver_stream hr]
    rfl
  | file path =>
    cases hw : v.write (utf8 path) (utf8 (r.text d)) with
    | mk attempt w =>
      cases attempt with
      | ok _ =>
        refine ⟨"", ?_⟩
        intro out err
        rw [deliver_file (s := ⟨out, err, v, listener⟩) hr hw, Sink.write_empty]
      | error e =>
        refine ⟨Session.heard ⟨Sink.empty none, Sink.empty none, v, listener⟩
          (unwritten program path e) ++ String.join (warning path e) ++ r.text d, ?_⟩
        intro out err
        rw [deliver_refused (s := ⟨out, err, v, listener⟩) hr hw]
        rfl

end Deliver

/-- What the report of a run offers to the error stream, seen on a stream without a bound. -/
def emission (program : String) (request : Option Request) (d : Rendering) (v : Volume)
    (listener : Option Listener) : Bytes :=
  match request with
  | some r => (deliver program r d ⟨Sink.empty none, Sink.empty none, v, listener⟩).err.written
  | none => []

theorem report_session {c : Conclusion} {rendering : Elapsed → Rendering}
    (h : c.rendering = some rendering) (program : String) (r : Request) (elapsed : Elapsed) :
    (c.report program (some r) elapsed).1 = deliver program r (rendering elapsed) c.session := by
  simp only [Conclusion.report, h]

theorem report_err {session : Session} {room : Room} {said : Bytes} (program : String)
    (request : Option Request) (elapsed : Elapsed) (rendering : Elapsed → Rendering) (code : Nat)
    (he : session.err = (Sink.empty room).take said) :
    (Conclusion.report program request elapsed ⟨session, some rendering, code⟩).1.err =
      (Sink.empty room).take (said ++
        emission program request (rendering elapsed) session.volume session.listener) := by
  cases request with
  | none => simp [Conclusion.report, emission, he]
  | some r =>
    obtain ⟨added, hadded⟩ := deliver_err program r (rendering elapsed) session.volume
      session.listener
    have hall : emission program (some r) (rendering elapsed) session.volume session.listener =
        utf8 added := by
      rw [emission, hadded]
      rfl
    have hsession : (deliver program r (rendering elapsed) session).err =
        session.err.write added := hadded session.out session.err
    simp only [Conclusion.report]
    rw [hsession, hall, he, Sink.write_take]

section Once

/-- What stands in front of a report on the stream that stands in for a file: the log line of the
failure, if a listener shows it there, and the warning. -/
def diversion (program : String) (s : Session) (path : String) (e : FileError) : String :=
  s.heard (unwritten program path e) ++
    ("Warning: could not write report to " ++ path ++ ": " ++ e.message ++ "\n")

theorem diversion_congr {s s' : Session} (h : s.listener = s'.listener) (program path : String)
    (e : FileError) : diversion program s path e = diversion program s' path e := by
  rw [diversion, diversion, Session.heard, Session.heard, h]

/-- A report of a certain text between two sessions. The error stream has no more than a certain
room, and was given some bytes before. -/
structure Delivered (program : String) (r : Request) (text : String) (room : Room) (said : Bytes)
    (before after : Session) : Prop where
  out : after.out = before.out
  /-- On the stream there is the report, and no file changes. -/
  stream : r.destination = .errorStream →
    Sink.Received room (said ++ utf8 text) after.err ∧ after.volume = before.volume
  /-- If the file cannot be made, nothing changes but the stream. -/
  refused : ∀ path e, r.destination = .file path → before.volume.create (utf8 path) = .error e →
    Sink.Received room (said ++ utf8 (diversion program before path e ++ text)) after.err ∧
      after.volume = before.volume
  /-- If it takes the report, the stream has nothing of that, and the file nothing else. -/
  whole : ∀ path created place, r.destination = .file path →
    before.volume.create (utf8 path) = .ok (created, place) →
    (created.fill place (utf8 text)).1 = .ok () →
    Sink.Received room said after.err ∧
      (before.volume.Device place → after.volume = before.volume) ∧
      (¬ before.volume.Device place →
        after.volume.entryAt place = some (.file (utf8 text)) ∧
        (before.volume.refusal Refusal.reading? place = none →
          after.volume.read (utf8 path) = .ok (utf8 text)))
  /-- If it refuses some of the report, it has less than that, and the stream has all. -/
  part : ∀ path created place e, r.destination = .file path →
    before.volume.create (utf8 path) = .ok (created, place) →
    (created.fill place (utf8 text)).1 = .error e →
    Sink.Received room (said ++ utf8 (diversion program before path e ++ text)) after.err ∧
      (before.volume.Device place → after.volume = before.volume) ∧
      (¬ before.volume.Device place → ∃ n < (utf8 text).length,
        after.volume.entryAt place = some (.file ((utf8 text).take n)))
  /-- No other place changes. -/
  others : ∀ path created place, r.destination = .file path →
    before.volume.create (utf8 path) = .ok (created, place) →
    ∀ other, other ≠ place → after.volume.entryAt other = before.volume.entryAt other

variable {program path : String} {r : Request} {d : Rendering} {s : Session} {room : Room}
  {said : Bytes} {e : FileError}

theorem received_diverted (hs : s.err = (Sink.empty room).take said)
    (hr : r.destination = .file path)
    (he : (s.volume.write (utf8 path) (utf8 (r.text d))).1 = .error e) :
    Sink.Received room (said ++ utf8 (diversion program s path e ++ r.text d))
      (deliver program r d s).err := by
  rw [deliver_refused hr (Prod.ext he rfl), Session.complain_err, join_warning, hs,
    Sink.write_take]
  exact Sink.received_take ..

theorem delivered (program : String) (r : Request) (d : Rendering)
    (hs : s.err = (Sink.empty room).take said) :
    Delivered program r (r.text d) room said s (deliver program r d s) where
  out := deliver_out program r d s
  stream hr := by
    rw [deliver_stream hr, Session.complain_err, hs, Sink.write_take]
    exact ⟨Sink.received_take .., rfl⟩
  refused path e hr he := by
    have hw : s.volume.write (utf8 path) (utf8 (r.text d)) = (.error e, s.volume) :=
      Volume.create_error he
    exact ⟨received_diverted hs hr (by rw [hw]), by rw [deliver_volume hr, hw]⟩
  whole path created place hr hc hok := by
    have hw : s.volume.write (utf8 path) (utf8 (r.text d)) = _ := Volume.create_ok hc
    rw [deliver_file hr (hw.trans (Prod.ext hok rfl))]
    refine ⟨?_, fun hd => Volume.filled_device hc hd _, fun hd => ?_⟩
    · dsimp only
      rw [hs]
      exact Sink.received_take ..
    · have hfile := Volume.filled_whole hc hd hok
      exact ⟨hfile, Volume.read_filled hc hfile⟩
  part path created place e hr hc he := by
    have hw : s.volume.write (utf8 path) (utf8 (r.text d)) = _ := Volume.create_ok hc
    rw [deliver_volume hr, hw]
    exact ⟨received_diverted hs hr (by rw [hw, he]), fun hd => Volume.filled_device hc hd _,
      fun hd => Volume.filled_part hc hd he⟩
  others path created place hr hc other ho := by
    rw [deliver_volume hr, Volume.create_ok hc]
    exact Volume.filled_other hc _ ho

end Once

/-- The lines or the object with an end of line, whatever either program reports, go as a whole to
one place: to the stream that was asked for, to the file, or behind a warning to the stream that
stands in for it. Without a listener that stream has the warning and the report alone. -/
theorem deliver_once (r : Request) (out : Sink) (room : Room) (v : Volume)
    (listener : Option Listener) :
    let before : Session := ⟨out, Sink.empty room, v, listener⟩
    (∀ d : Leibniz.ReportData, Delivered Leibniz.programName r
      (match r.format with | .human => d.human | .json => d.json ++ "\n") room [] before
      (deliver Leibniz.programName r d.rendering before)) ∧
    (∀ d : Sieve.ReportData, Delivered Sieve.programName r
      (match r.format with | .human => d.human | .json => d.json ++ "\n") room [] before
      (deliver Sieve.programName r d.rendering before)) ∧
    (listener = none → ∀ program path e, diversion program before path e =
      "Warning: could not write report to " ++ path ++ ": " ++ e.message ++ "\n") := by
  intro before
  have hempty : before.err = (Sink.empty room).take [] := (Sink.take_nil _).symm
  refine ⟨?_, ?_, ?_⟩
  · intro d
    exact delivered Leibniz.programName r d.rendering hempty
  · intro d
    exact delivered Sieve.programName r d.rendering hempty
  · intro hnone program path e
    rw [diversion, Session.heard_unheard hnone, String.empty_append]

end LeibnizSieve.Report
