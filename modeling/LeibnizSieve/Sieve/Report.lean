import LeibnizSieve.Report.Delivery
import LeibnizSieve.Report.Elapsed
import LeibnizSieve.Report.Json
import LeibnizSieve.Report.Request

/-!
Reports about a sieve, and the reading of the value that asks for one.
-/

namespace LeibnizSieve.Sieve

open Report

/-- What a value asks for: first how the report looks and where it goes, then the request. -/
def requestOf (value : String) : Answer := do
  let (format, destination) ←
    if value = "" ∨ value = "0" then return none
    else if value = "1" then pure (Format.human, Destination.errorStream)
    else if value = "json" then pure (Format.json, Destination.errorStream)
    else
      match filePath? value.toList with
      | some path => pure (Format.json, Destination.file path)
      | none => throw ⟨value⟩
  return some ⟨format, destination⟩

inductive Outcome where
  | done
  | aborted
  deriving DecidableEq, Repr

def Outcome.name : Outcome → String
  | .done => "done"
  | .aborted => "aborted"

/-- The count is there when the sieve was completed. -/
structure ReportData where
  limit : UInt64
  outcome : Outcome
  primeCount : Option UInt64
  elapsed : Elapsed
  deriving DecidableEq, Repr

namespace ReportData

def human (d : ReportData) : String :=
  "=== PRIMES REPORT ===\n"
    ++ "Wall clock:  " ++ toString d.elapsed.milliseconds ++ " ms\n"
    ++ "Limit:       " ++ toString d.limit.toNat ++ "\n"
    ++ "Outcome:     " ++ d.outcome.name ++ "\n"
    ++ (match d.primeCount with
      | some count => "Primes:      " ++ toString count.toNat ++ "\n"
      | none => "")
    ++ "=====================\n"

def json (d : ReportData) : String :=
  jsonObject ([("limit", .natural d.limit.toNat), ("outcome", .word d.outcome.name)]
    ++ (match d.primeCount with
      | some count => [("prime_count", .natural count.toNat)]
      | none => [])
    ++ [("wall_clock_ms", .natural (d.elapsed.milliseconds % 2 ^ 64))])

def rendering (d : ReportData) : Rendering :=
  ⟨d.human, d.json⟩

end ReportData

end LeibnizSieve.Sieve
