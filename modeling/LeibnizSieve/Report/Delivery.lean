import LeibnizSieve.Console.Session
import LeibnizSieve.Report.Elapsed
import LeibnizSieve.Report.Request

/-!
Bringing a report to where it was asked for. A file that cannot be made or filled is warned
about, and its report goes to the error stream. Main statements: a report changes neither the
output stream nor the exit status.
-/

namespace LeibnizSieve.Report

open Text Console Files Log

structure Rendering where
  human : String
  json : String

def Request.text (r : Request) (d : Rendering) : String :=
  match r.format with
  | .human => d.human
  | .json => d.json ++ "\n"

def unwritten (program path : String) (e : FileError) : Event where
  level := .warn
  target := program ++ "::report"
  message := "could not write report file"
  fields := [("path", path), ("error", e.message)]

def warning (path : String) (e : FileError) : List String :=
  ["Warning: could not write report to ", path, ": ", e.message, "\n"]

def afterFile (program path text : String) (attempt : Except FileError Unit) (s : Session) :
    Session :=
  match attempt with
  | .ok () => s
  | .error e => ((s.log (unwritten program path e)).complainPieces (warning path e)).complain text

def deliver (program : String) (r : Request) (d : Rendering) (s : Session) : Session :=
  let text := r.text d
  match r.destination with
  | .errorStream => s.complain text
  | .file path =>
    let (attempt, volume) := s.volume.write (utf8 path) (utf8 text)
    afterFile program path text attempt { s with volume }

@[simp] theorem deliver_out (program : String) (r : Request) (d : Rendering) (s : Session) :
    (deliver program r d s).out = s.out := by
  unfold deliver
  dsimp only
  split
  · rfl
  · unfold afterFile
    split <;> simp

/-- A run up to its report: what it did, what can be reported once the time is known, and its
exit status. A run that was stopped has nothing to report. -/
structure Conclusion where
  session : Session
  rendering : Option (Elapsed → Rendering)
  code : Nat

def Conclusion.report (program : String) (request : Option Request) (elapsed : Elapsed)
    (c : Conclusion) : Session × Nat :=
  match request, c.rendering with
  | some r, some rendering => (deliver program r (rendering elapsed) c.session, c.code)
  | _, _ => (c.session, c.code)

@[simp] theorem report_code (program : String) (request : Option Request) (elapsed : Elapsed)
    (c : Conclusion) : (c.report program request elapsed).2 = c.code := by
  unfold Conclusion.report
  split <;> rfl

@[simp] theorem report_out (program : String) (request : Option Request) (elapsed : Elapsed)
    (c : Conclusion) : (c.report program request elapsed).1.out = c.session.out := by
  unfold Conclusion.report
  split <;> simp

end LeibnizSieve.Report
