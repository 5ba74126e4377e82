import LeibnizSieve.Config.Settings
import LeibnizSieve.Console.Words
import LeibnizSieve.Leibniz.Report

/-!
A run of the series program: prompt, sum, result line, report. A result line that cannot be
written ends the run.
-/

namespace LeibnizSieve.Leibniz

open Console Log Report Config Decimal

def programName : String := "compute_pi"

def schema : Schema Bool where
  own := {
    name := "output"
    shape := "OutputConfig"
    field := { name := "legacy_prompt", decode := boolean, default := false } }
  defaultText :=
    "# Default configuration for compute_pi\n"
      ++ "#\n"
      ++ "# Override any of these with `compute_pi --config <PATH>`; keys left out of\n"
      ++ "# the user file keep the values below.\n"
      ++ "\n"
      ++ "[output]\n"
      ++ "# Print the old \"Enter the number of iterations: \" prompt before the result.\n"
      ++ "# No input is read after it.\n"
      ++ "legacy_prompt = false\n"
      ++ "\n"
      ++ "[log]\n"
      ++ "# Level for this crate's own log lines. RUST_LOG directives are applied too.\n"
      ++ "level = \"error\"\n"

def computing (iterations : UInt64) : Event where
  level := .info
  target := programName
  message := "computing pi"
  fields := [("iterations", toString iterations.toNat)]

def summed (iterations : UInt64) (value : Float) : Event where
  level := .debug
  target := programName
  message := "leibniz series summed"
  fields := [("iterations", toString iterations.toNat), ("pi", Layout.mixed.text value)]

def announce (iterations : UInt64) (value : Float) (withPrompt : Bool) (s : Session) : Session :=
  let s := if withPrompt then s.print prompt else s
  (s.log (computing iterations)).log (summed iterations value)

def conclude (words : Words) (iterations : UInt64) (withPrompt : Bool) (s : Session) :
    Conclusion :=
  let value := leibnizPi iterations
  let line := resultLine value ++ "\n"
  let s := announce iterations value withPrompt s
  if s.accepts line then {
    session := s.print line
    rendering := some fun elapsed => (ReportData.mk iterations value elapsed).rendering
    code := 0 }
  else {
    session := (s.print line).complain (words.stopped .outputRefused)
    rendering := none
    code := stoppedStatus }

end LeibnizSieve.Leibniz
