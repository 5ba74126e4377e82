import LeibnizSieve.CommandLine.Program
import Std.Time

/-!
The command line. The first argument names the program, and the others are the program's own.
-/

namespace LeibnizSieve.CommandLine

open Text Files Console Report

/-- The number of an error; the system's libraries do not agree on its sign. -/
def errorNumber (code : UInt32) : UInt32 :=
  min code (0 - code)

def fileError : IO.Error → FileError
  | .noFileOrDirectory .. => .notFound
  | .inappropriateType _ code _ =>
    if errorNumber code = 20 then .notADirectory else .isADirectory
  | .resourceExhausted .. => .noSpace
  | .permissionDenied .. => .other "Permission denied (os error 13)"
  | e@(.invalidArgument _ code _) =>
    if errorNumber code = 36 then .nameTooLong else .other (toString e)
  | e => .other (toString e)

def tryFile {α : Type} (path : String) (action : IO α) : IO (Except FileError α) :=
  if path.contains '\x00' then return .error .nulInName
  else try
    return .ok (← action)
  catch e =>
    return .error (fileError e)

def readText (path : String) : IO (Except FileError String) := do
  match ← tryFile path (IO.FS.readBinFile path) with
  | .error e => return .error e
  | .ok contents =>
    match ofUtf8? contents.data.toList with
    | some text => return .ok text
    | none => return .error .notText

def writeText (path text : String) : IO (Except FileError Unit) :=
  tryFile path <| IO.FS.withFile path .write fun handle => do
    handle.putStr text
    handle.flush

def send (stream : IO.FS.Stream) (bytes : Bytes) : IO Bool :=
  try
    stream.write ⟨bytes.toArray⟩
    stream.flush
    return true
  catch _ =>
    return false

def stamp : IO String := do
  let now ← Std.Time.Timestamp.now
  let time := Std.Time.WallTime.ofTimestamp now Std.Time.TimeZone.GMT.offset
  return (Std.Time.PlainDateTime.ofWallTime time).format "uuuu-MM-dd'T'HH:mm:ss.SSSSSS'Z'"

def completionWords : String :=
  "completions help --config --help --version"

def completionScript (program : String) : Shell → String
  | .bash => "complete -o default -W '" ++ completionWords ++ "' " ++ program ++ "\n"
  | .elvish =>
    "set edit:completion:arg-completer[" ++ program ++ "] = \x7b|@words| put "
      ++ completionWords ++ " \x7d\n"
  | .fish => "complete -c " ++ program ++ " -a '" ++ completionWords ++ "'\n"
  | .powershell =>
    "Register-ArgumentCompleter -Native -CommandName " ++ program
      ++ " -ScriptBlock \x7b -split '" ++ completionWords ++ "' \x7d\n"
  | .zsh => "#compdef " ++ program ++ "\ncompadd " ++ completionWords ++ "\n"

def words : Words where
  malformed := "malformed TOML document\n"
  stopped
    | .outputRefused => "failed printing to the output stream\n"
    | .cutCharacter => "a log directive is cut inside a character\n"
  completions program name := ((Shell.ofName? name).map (completionScript program)).getD ""

def surroundings : IO Surroundings := do
  return {
    logVariable := (← IO.getEnv "RUST_LOG").map utf8
    reportVariable := (← IO.getEnv Report.variableName).map utf8
    outRoom := none
    volume := ⟨[], [], none, []⟩
    stamp := ← stamp
    colourVariable := (← IO.getEnv "NO_COLOR").map utf8
    words }

def elapsedOf (nanoseconds : Nat) : Elapsed where
  seconds := UInt64.ofNat (nanoseconds / 1000000000)
  nanoseconds := UInt32.ofNat (nanoseconds % 1000000000)

def conclude (room : Room → Conclusion × Option Report.Request) :
    IO (Conclusion × Option Report.Request) := do
  let free := room none
  if ← send (← IO.getStdout) free.1.session.out.written then return free
  else return room (some 0)

def report (program : String) (request : Option Report.Request) (elapsed : Elapsed)
    (c : Conclusion) : IO Session := do
  match request, c.rendering with
  | some ⟨format, .file path⟩, some rendering =>
    let text := Report.Request.text ⟨format, .file path⟩ (rendering elapsed)
    return afterFile program path text (← writeText path text) c.session
  | _, _ => return (c.report program request elapsed).1

def work {α : Type} (p : Program α) (e : Surroundings) (choice : α) (s : Session) :
    IO UInt32 := do
  let began ← IO.monoNanosNow
  let (c, request) ← conclude fun room => p.start e choice { s with out := Sink.empty room }
  let elapsed := elapsedOf ((← IO.monoNanosNow) - began)
  let s ← report p.name request elapsed c
  let _ ← send (← IO.getStderr) s.err.written
  return UInt32.ofNat c.code

def tell (room : Room → Result) : IO UInt32 := do
  let free := room none
  let result := if ← send (← IO.getStdout) free.out then free else room (some 0)
  let _ ← send (← IO.getStderr) result.err
  return UInt32.ofNat result.code

def perform {α : Type} (p : Program α) (arguments : List String) : IO UInt32 := do
  let e ← surroundings
  match Request.ofArguments arguments with
  | .ok (.run config) =>
    let loaded ← match config with
      | none => pure (p.schema.load e.volume none)
      | some path => p.schema.ofFile (utf8 path) <$> readText path
    match p.prepare loaded with
    | .error error => tell fun room => Program.fail { e with outRoom := room } error
    | .ok (settings, directive) =>
      match Program.begin e directive with
      | .error stopped => tell fun _ => stopped
      | .ok s => work p e settings.choice s
  | _ => tell fun room => p.execute { e with outRoom := room } ⟨0, 0⟩ arguments

/-- How many flags the memory is taken to hold. -/
def slots : Nat := 2 ^ 48

def dispatch (arguments : List String) : IO UInt32 := do
  let series := seriesProgram
  let sieve := sieveProgram slots
  match arguments with
  | [] => refuse series.name sieve.name
  | name :: rest =>
    if name = series.name then perform series rest
    else if name = sieve.name then perform sieve rest
    else refuse series.name sieve.name
where
  refuse (a b : String) : IO UInt32 := do
    IO.eprintln ("error: name one of the programs " ++ a ++ " and " ++ b)
    return 2

end LeibnizSieve.CommandLine

def main (arguments : List String) : IO UInt32 :=
  LeibnizSieve.CommandLine.dispatch arguments
