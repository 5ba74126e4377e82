import LeibnizSieve.Config.Decoding
import LeibnizSieve.Files.Volume
import LeibnizSieve.Log.Directive
import LeibnizSieve.Toml.Document
import LeibnizSieve.Toml.Excerpt

/-!
Settings of a program: one choice of its own, and the level of its log lines. They come from a
document with one section for each, from a file that holds such a document, or from the defaults.
-/

namespace LeibnizSieve.Config

open Text Toml Files

structure Settings (α : Type) where
  choice : α
  level : String
  deriving DecidableEq, Repr

def logSection : Section String where
  name := "log"
  shape := "LogConfig"
  field := { name := "level", decode := string, default := "error" }

structure Schema (α : Type) where
  own : Section α
  defaultText : String

/-- What is wrong with settings. What a malformed document is told by its reader is not kept. -/
inductive ConfigError where
  | unreadable (path : Bytes) (e : FileError)
  | malformed
  | undecodable (text : String) (e : DecodeError)
  | badLevel (level : String)
  deriving DecidableEq, Repr

namespace ConfigError

def decodeMessage (text : String) (e : DecodeError) : String :=
  match e.span with
  | some span => located text.toList span e.problem.message
  | none => e.problem.message ++ "\n"

/-- What lies behind the error; `malformed` is what the reader says of a document that is none. -/
def cause (e : ConfigError) (malformed : String := "") : Option String :=
  match e with
  | .unreadable _ e => some e.message
  | .malformed => some malformed
  | .undecodable text e => some (decodeMessage text e)
  | .badLevel _ => none

def message (e : ConfigError) (malformed : String := "") : String :=
  match e with
  | .unreadable path e => "Failed to read config " ++ lossyText path ++ ": " ++ e.message
  | .malformed => "Failed to parse config: " ++ malformed
  | .undecodable text e => "Failed to parse config: " ++ decodeMessage text e
  | .badLevel level => "Invalid log level '" ++ level ++ "'"

end ConfigError

namespace Schema

variable {α : Type}

def defaults (s : Schema α) : Settings α :=
  ⟨s.own.field.default, logSection.field.default⟩

def decodeEntry (s : Schema α) (settings : Settings α) (key : Key) (v : Value) :
    Decoded (Settings α) :=
  if key.name = s.own.name then do
    return { settings with choice := ← atSpan (v.span?.getD key.span) (s.own.decode v) }
  else if key.name = logSection.name then do
    return { settings with level := ← atSpan (v.span?.getD key.span) (logSection.decode v) }
  else .error ⟨.unknownField key.name [s.own.name, logSection.name], key.span⟩

def decodeEntries (s : Schema α) : Settings α → Entries → Decoded (Settings α)
  | settings, [] => .ok settings
  | settings, (key, v) :: rest => do
    let settings ← s.decodeEntry settings key v
    decodeEntries s settings rest

def decode (s : Schema α) (document : Entries) : Decoded (Settings α) :=
  s.decodeEntries s.defaults document

def ofText (s : Schema α) (text : String) : Except ConfigError (Settings α) :=
  match read? text with
  | none => .error .malformed
  | some document =>
    match s.decode document with
    | .ok settings => .ok settings
    | .error e => .error (.undecodable text e)

def ofFile (s : Schema α) (path : Bytes) (contents : Except FileError String) :
    Except ConfigError (Settings α) :=
  match contents with
  | .error e => .error (.unreadable path e)
  | .ok text => s.ofText text

def load (s : Schema α) (volume : Volume) : Option Bytes → Except ConfigError (Settings α)
  | none => s.ofText s.defaultText
  | some path => s.ofFile path (volume.readText path)

end Schema

/-- The name of a program begins with no blank, so the scan of this text is not stopped. -/
def logDirective (program level : String) : Except ConfigError Log.Directive :=
  match Log.Directive.parse (program.toList ++ '=' :: level.toList) with
  | .ok d => .ok d
  | .error _ => .error (.badLevel level)

end LeibnizSieve.Config
