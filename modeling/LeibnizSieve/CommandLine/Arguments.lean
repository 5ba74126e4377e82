import LeibnizSieve.Text.Plain

/-!
Command lines. A program takes one option with a value and two subcommands. The value of the
option is judged when the next flag or the end of the line settles it, so of two mistakes the
later one may be the one that is reported.
-/

namespace LeibnizSieve.CommandLine

open Text

inductive Shell where
  | bash
  | elvish
  | fish
  | powershell
  | zsh
  deriving DecidableEq, Repr

namespace Shell

def all : List Shell := [bash, elvish, fish, powershell, zsh]

def name : Shell → String
  | bash => "bash"
  | elvish => "elvish"
  | fish => "fish"
  | powershell => "powershell"
  | zsh => "zsh"

def ofName? (name : String) : Option Shell :=
  all.find? (·.name = name)

@[simp] theorem ofName_name (s : Shell) : ofName? s.name = some s := by
  cases s <;> decide

end Shell

inductive Topic where
  | program
  | completions
  | help
  deriving DecidableEq, Repr

inductive Request where
  | run (config : Option String)
  | completions (shell : Shell)
  | help (topic : Topic)
  | version
  deriving DecidableEq, Repr

inductive Argument where
  | config
  | shell
  | helpFlag
  | versionFlag
  deriving DecidableEq, Repr

def Argument.usage : Argument → String
  | .config => "--config <PATH>"
  | .shell => "<SHELL>"
  | .helpFlag => "--help"
  | .versionFlag => "--version"

inductive UsageError where
  | unknownSubcommand (name : String)
  | unexpectedArgument (text : String)
  | unexpectedValue (value : String) (argument : Argument)
  | missingValue (argument : Argument)
  | repeatedArgument (argument : Argument)
  | invalidValue (value : String) (argument : Argument)
  | missingRequired
  deriving DecidableEq, Repr

def UsageError.message : UsageError → String
  | .unknownSubcommand name => "error: unrecognized subcommand '" ++ plain name ++ "'"
  | .unexpectedArgument text => "error: unexpected argument '" ++ plain text ++ "' found"
  | .unexpectedValue value argument =>
    "error: unexpected value '" ++ plain value ++ "' for '" ++ argument.usage
      ++ "' found; no more were expected"
  | .missingValue argument =>
    "error: a value is required for '" ++ argument.usage ++ "' but none was supplied"
  | .repeatedArgument argument =>
    "error: the argument '" ++ argument.usage ++ "' cannot be used multiple times"
  | .invalidValue value argument =>
    "error: invalid value '" ++ plain value ++ "' for '" ++ argument.usage ++ "'"
  | .missingRequired => "error: the following required arguments were not provided:"

abbrev Parsed := Except UsageError

inductive Token where
  /-- Two dashes alone: no flags follow. -/
  | separator
  /-- Two dashes and a name, perhaps with a value after an equals sign. -/
  | long (name : String) (value : Option String)
  /-- A dash and at least one letter, the first of which is given. -/
  | short (letter : Char)
  | plain
  deriving DecidableEq, Repr

def Token.ofText (text : String) : Token :=
  match text.toList with
  | ['-', '-'] => .separator
  | '-' :: '-' :: body =>
    .long (String.ofList (body.takeWhile (· ≠ '=')))
      (if body.contains '=' then some (String.ofList ((body.dropWhile (· ≠ '=')).drop 1))
        else none)
  | '-' :: letter :: _ => .short letter
  | _ => .plain

inductive Pending where
  | nothing
  | awaited
  | given (value : String)
  deriving DecidableEq, Repr

def settle (config : Option String) : Pending → Parsed (Option String)
  | .nothing => .ok config
  | .awaited => .error (.missingValue .config)
  | .given value =>
    if config.isSome then .error (.repeatedArgument .config)
    else if value = "" then .error (.missingValue .config)
    else .ok (some value)

def subcommands : List String := ["completions", "help"]

def helpTopic : List String → Parsed Topic
  | [] => .ok .program
  | name :: rest =>
    match name, rest with
    | "completions", [] => .ok .completions
    | "help", [] => .ok .help
    | "completions", other :: _ | "help", other :: _ => .error (.unknownSubcommand other)
    | name, _ => .error (.unknownSubcommand name)

def settleShell : Option String → Parsed (Option Shell)
  | none => .ok none
  | some "" => .error (.missingValue .shell)
  | some value =>
    match Shell.ofName? value with
    | some shell => .ok (some shell)
    | none => .error (.invalidValue value .shell)

/-- The arguments of the completions subcommand. `flags` says whether flags are still looked for. -/
def completionArguments (flags : Bool) (given : Option String) : List String → Parsed Request
  | [] => do
    match ← settleShell given with
    | some shell => return .completions shell
    | none => throw .missingRequired
  | text :: rest =>
    match if flags then Token.ofText text else .plain with
    | .separator => completionArguments false given rest
    | .long "help" none => do
      let _ ← settleShell given
      return .help .completions
    | .long "help" (some value) => .error (.unexpectedValue value .helpFlag)
    | .long name _ => .error (.unexpectedArgument ("--" ++ name))
    | .short 'h' => do
      let _ ← settleShell given
      return .help .completions
    | .short letter => .error (.unexpectedArgument (String.ofList ['-', letter]))
    | .plain =>
      match given with
      | none => completionArguments flags (some text) rest
      | some _ => .error (.unexpectedArgument text)

def afterSeparator (config : Option String) (pending : Pending) : List String → Parsed Request
  | [] => do return .run (← settle config pending)
  | text :: _ =>
    .error (if text ∈ subcommands then .unexpectedArgument text else .unknownSubcommand text)

def programArguments (config : Option String) (pending : Pending) : List String → Parsed Request
  | [] => do return .run (← settle config pending)
  | text :: rest =>
    match Token.ofText text with
    | .separator => afterSeparator config pending rest
    | .long "config" none => do
      let config ← settle config pending
      programArguments config .awaited rest
    | .long "config" (some value) => do
      let config ← settle config pending
      let config ← settle config (.given value)
      programArguments config .nothing rest
    | .long "help" none => do
      let _ ← settle config pending
      return .help .program
    | .long "version" none => do
      let _ ← settle config pending
      return .version
    | .long "help" (some value) => .error (.unexpectedValue value .helpFlag)
    | .long "version" (some value) => .error (.unexpectedValue value .versionFlag)
    | .long name _ => .error (.unexpectedArgument ("--" ++ name))
    | .short 'h' => do
      let _ ← settle config pending
      return .help .program
    | .short 'V' => do
      let _ ← settle config pending
      return .version
    | .short letter => .error (.unexpectedArgument (String.ofList ['-', letter]))
    | .plain =>
      if pending = .awaited then programArguments config (.given text) rest
      else if text = "completions" then do
        match ← completionArguments true none rest with
        | .completions shell => do
          let _ ← settle config pending
          return .completions shell
        | request => return request
      else if text = "help" then do return .help (← helpTopic rest)
      else .error (.unknownSubcommand text)

def Request.ofArguments (arguments : List String) : Parsed Request :=
  programArguments none .nothing arguments

end LeibnizSieve.CommandLine
