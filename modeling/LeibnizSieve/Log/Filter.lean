import LeibnizSieve.Log.Directive
import LeibnizSieve.Log.Event
import LeibnizSieve.Text.Utf8

/-!
Filters made of directives. The directives are kept from the most to the least specific, and the
first that fits an event decides. The environment replaces the configured directive as soon as it
holds one valid directive of its own; a part of it that cannot be scanned stops the program.
-/

namespace LeibnizSieve.Log

open Text

structure Rule where
  level : Level
  target : Option String
  fields : List String
  deriving DecidableEq, Repr

namespace Rule

def ofDirective? (d : Directive) : Option Rule :=
  if d.isStatic then some ⟨d.level, d.target, d.fields.map (·.name)⟩ else none

def fits (r : Rule) (e : Event) : Bool :=
  (match r.target with
    | none => true
    | some target => target.toList.isPrefixOf e.target.toList)
  && r.fields.all (e.fieldNames.contains ·)

/-- Longer targets are more specific, then more fields; texts decide between the rest. -/
def compare (a b : Rule) : Ordering :=
  (Ord.compare (a.target.map String.utf8ByteSize) (b.target.map String.utf8ByteSize)).then <|
  (Ord.compare a.fields.length b.fields.length).then <|
  (Ord.compare a.target b.target).then (Ord.compare a.fields b.fields)

end Rule

/-- Rules from the most to the least specific. -/
abbrev Filter := List Rule

namespace Filter

def insert (r : Rule) : Filter → Filter
  | [] => [r]
  | s :: rest =>
    match r.compare s with
    | .gt => r :: s :: rest
    | .eq => r :: rest
    | .lt => s :: insert r rest

def ofDirectives (ds : List Directive) : Filter :=
  let rules := (ds.filter (!·.isDynamic) ++ ds.filter (·.isDynamic)).filterMap Rule.ofDirective?
  rules.foldl (fun f r => insert r f) []

def admits (f : Filter) (e : Event) : Bool :=
  match f.find? (·.fits e) with
  | some r => r.level.admits e.level
  | none => false

end Filter

def parts (value : String) : List (List Char) :=
  (value.toList.splitOn ',').filter (· ≠ [])

def ignoredLine (part : List Char) (e : DirectiveError) : String :=
  "ignoring `" ++ String.ofList part ++ "`: " ++ e.message ++ "\n"

/-- The directives among some parts, and the notices about the others. No directives come back
from parts of which one stops the program, and nothing is said of what follows that part. -/
def readParts : List (List Char) → Option (List Directive) × String
  | [] => (some [], "")
  | part :: rest =>
    match Directive.parse part with
    | .ok d =>
      let (ds, notices) := readParts rest
      (ds.map (d :: ·), notices)
    | .error (.refused e) =>
      let (ds, notices) := readParts rest
      (ds, ignoredLine part e ++ notices)
    | .error .stopped => (none, "")

/-- The filter for an environment value, with the notices it gives rise to. Without a valid
directive, or when the value is no text, the configured directive applies. -/
def filterOfEnvironment (configured : Directive) (value : Option Bytes) :
    Option Filter × String :=
  let (ds, notices) := readParts (parts ((value.bind ofUtf8?).getD ""))
  (ds.map fun ds => Filter.ofDirectives (if ds.isEmpty then [configured] else ds), notices)

end LeibnizSieve.Log
