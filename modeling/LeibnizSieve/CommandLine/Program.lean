import LeibnizSieve.CommandLine.Help
import LeibnizSieve.Leibniz.Run
import LeibnizSieve.Sieve.Run

/-!
The two programs as functions of their arguments, their environment and the files. A program
loads its settings, lets the environment choose log lines and report, and runs; what goes wrong
before that is its only output.
-/

namespace LeibnizSieve.CommandLine

open Text Files Console Log Config Report

/-- `requestOf` reads the value of the report variable. -/
structure Program (α : Type) where
  name : String
  about : String
  schema : Schema α
  requestOf : String → Answer
  conclude : Words → α → Session → Conclusion

/-- What surrounds a run: three variables, the room of the output stream, the files, the time as
log lines show it, and the words of others. The third variable decides about colours; as it is by
default it asks for none. -/
structure Surroundings where
  logVariable : Option Bytes
  reportVariable : Option Bytes
  outRoom : Room
  volume : Volume
  stamp : String
  colourVariable : Option Bytes := some (utf8 "1")
  words : Words := {}

def Surroundings.look (e : Surroundings) : Look :=
  ⟨e.stamp, wantsColour e.colourVariable⟩

structure Result where
  code : Nat
  out : Bytes
  err : Bytes
  volume : Volume
  deriving DecidableEq, Repr

namespace Program

variable {α : Type}

def prepare (p : Program α) (loaded : Except ConfigError (Settings α)) :
    Except ConfigError (Settings α × Directive) := do
  let settings ← loaded
  let directive ← logDirective p.name settings.level
  return (settings, directive)

def saying (e : Surroundings) (code : Nat) (out err : String) : Result where
  code
  out := e.outRoom.accepts (utf8 out)
  err := utf8 err
  volume := e.volume

def listen (e : Surroundings) (filter : Filter) (notices : String) : Session :=
  let s : Session := {
    out := Sink.empty e.outRoom
    err := Sink.empty none
    volume := e.volume
    listener := some ⟨filter, e.look⟩ }
  s.complain notices

/-- The start of a run, or what is seen of a program that is stopped before. -/
def begin (e : Surroundings) (directive : Directive) : Except Result Session :=
  match filterOfEnvironment directive e.logVariable with
  | (some filter, notices) => .ok (listen e filter notices)
  | (none, notices) =>
    .error (saying e stoppedStatus "" (notices ++ e.words.stopped .cutCharacter))

def request (p : Program α) (e : Surroundings) (s : Session) :
    Session × Option Report.Request :=
  match Report.Request.ofVariable e.reportVariable p.requestOf with
  | .ok r => (s, r)
  | .error u => (s.complain (u.message ++ "\n"), none)

def start (p : Program α) (e : Surroundings) (choice : α) (s : Session) :
    Conclusion × Option Report.Request :=
  let (s, r) := p.request e s
  (p.conclude e.words choice s, r)

def fail (e : Surroundings) (error : ConfigError) : Result :=
  saying e 1 "" ("Error: " ++ error.message e.words.malformed ++ "\n")

def runLoaded (p : Program α) (e : Surroundings) (elapsed : Elapsed)
    (loaded : Except ConfigError (Settings α)) : Result :=
  match p.prepare loaded with
  | .error error => fail e error
  | .ok (settings, directive) =>
    match begin e directive with
    | .error stopped => stopped
    | .ok s =>
      let (c, r) := p.start e settings.choice s
      let (s, code) := c.report p.name r elapsed
      ⟨code, s.out.written, s.err.written, s.volume⟩

def execute (p : Program α) (e : Surroundings) (elapsed : Elapsed) (arguments : List String) :
    Result :=
  match Request.ofArguments arguments with
  | .error error => saying e 2 "" (error.message ++ "\n")
  | .ok (.help topic) => saying e 0 (helpText p.name p.about topic) ""
  | .ok .version => saying e 0 (versionLine p.name) ""
  | .ok (.completions shell) =>
    let script := e.words.completions p.name shell.name
    if e.outRoom.fits (utf8 script) then saying e 0 script ""
    else saying e stoppedStatus script (e.words.stopped .outputRefused)
  | .ok (.run config) =>
    p.runLoaded e elapsed (p.schema.load e.volume (config.map utf8))

end Program

def seriesProgram : Program Bool where
  name := Leibniz.programName
  about := "Approximate pi with the Leibniz series"
  schema := Leibniz.schema
  requestOf := Report.Request.ofValue
  conclude words := Leibniz.conclude words Leibniz.defaultIterations

def sieveProgram (capacity : Nat) : Program Sieve.Policy where
  name := Sieve.programName
  about := "Sieve of Eratosthenes up to a fixed limit"
  schema := Sieve.schema
  requestOf := Sieve.requestOf
  conclude _ := Sieve.conclude capacity Sieve.defaultLimit

end LeibnizSieve.CommandLine
