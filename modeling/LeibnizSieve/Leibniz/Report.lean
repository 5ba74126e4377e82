import LeibnizSieve.Leibniz.Series
import LeibnizSieve.Report.Delivery
import LeibnizSieve.Report.Elapsed
import LeibnizSieve.Report.Json

/-!
Reports about a sum of the series.
-/

namespace LeibnizSieve.Leibniz

open Report

def pi : Float := Float.ofBits 0x400921fb54442d18

structure ReportData where
  iterations : UInt64
  value : Float
  elapsed : Elapsed

namespace ReportData

def absError (d : ReportData) : Float :=
  (d.value - pi).abs

def human (d : ReportData) : String :=
  "=== PI REPORT ===\n"
    ++ "Wall clock:  " ++ toString d.elapsed.milliseconds ++ " ms\n"
    ++ "Iterations:  " ++ toString d.iterations.toNat ++ "\n"
    ++ "Value:       " ++ Decimal.fixedText 15 d.value ++ "\n"
    ++ "Abs error:   " ++ Decimal.Layout.scientific.text d.absError ++ "\n"
    ++ "=================\n"

/-- Milliseconds are cut to a word; the keys are in alphabetical order. -/
def json (d : ReportData) : String :=
  jsonObject [
    ("abs_error", .float d.absError),
    ("iterations", .natural d.iterations.toNat),
    ("value", .float d.value),
    ("wall_clock_ms", .natural (d.elapsed.milliseconds % 2 ^ 64))]

def rendering (d : ReportData) : Rendering :=
  ⟨d.human, d.json⟩

end ReportData

end LeibnizSieve.Leibniz
