import LeibnizSieve.Config.Settings
import LeibnizSieve.Sieve.Report
import LeibnizSieve.Sieve.Table

/-!
A run of the sieve program: sieve, completion line or error, report.
-/

namespace LeibnizSieve.Sieve

open Console Log Report Config

def programName : String := "compute_primes"

def completionMessage : String := "End Program"

inductive Policy where
  | silent
  | report
  deriving DecidableEq, Repr

namespace Policy

def exitCode : Policy → Nat
  | silent => 0
  | report => 1

def name : Policy → String
  | silent => "silent"
  | report => "report"

def variants : Variants Policy :=
  [(silent.name, silent), (report.name, report)]

end Policy

def schema : Schema Policy where
  own := {
    name := "sieve"
    shape := "SieveConfig"
    field := { name := "on_alloc_failure", decode := variant Policy.variants, default := .silent } }
  defaultText :=
    "# Default configuration for compute_primes\n"
      ++ "#\n"
      ++ "# Override any of these with `compute_primes --config <PATH>`; keys left out\n"
      ++ "# of the user file keep the values below.\n"
      ++ "\n"
      ++ "[sieve]\n"
      ++ "# What to do when the presence array cannot be allocated:\n"
      ++ "#   \"silent\" - print nothing, exit 0\n"
      ++ "#   \"report\" - print the error to stderr, exit 1\n"
      ++ "on_alloc_failure = \"silent\"\n"
      ++ "\n"
      ++ "[log]\n"
      ++ "# Level for this crate's own log lines. RUST_LOG directives are applied too.\n"
      ++ "level = \"error\"\n"

def limitField (limit : UInt64) : String × String :=
  ("limit", toString limit.toNat)

def sieving (limit : UInt64) : Event where
  level := .info
  target := programName
  message := "sieving"
  fields := [limitField limit]

def sieved (limit : UInt64) : Event where
  level := .debug
  target := programName
  message := "sieve done"
  fields := [limitField limit]

def abortedEvent (limit : UInt64) (e : SieveError) : Event where
  level := .warn
  target := programName
  message := "sieve aborted"
  fields := [limitField limit, ("error", e.message)]

def conclude (capacity : Nat) (limit : UInt64) (policy : Policy) (s : Session) : Conclusion :=
  let s := s.log (sieving limit)
  match sieve capacity limit with
  | .ok table => {
    session := (s.log (sieved limit)).printPieces [completionMessage, "\n"]
    rendering := some fun elapsed =>
      ReportData.rendering ⟨limit, .done, some (UInt64.ofNat table.count), elapsed⟩
    code := 0 }
  | .error e =>
    let s := s.log (abortedEvent limit e)
    { session := match policy with
        | .report => s.complainPieces ["Error: ", e.message, "\n"]
        | .silent => s
      rendering := some fun elapsed => ReportData.rendering ⟨limit, .aborted, none, elapsed⟩
      code := policy.exitCode }

def run (capacity : Nat) (limit : UInt64) (policy : Policy) (request : Option Request)
    (elapsed : Elapsed) (s : Session) : Session × Nat :=
  (conclude capacity limit policy s).report programName request elapsed

end LeibnizSieve.Sieve
