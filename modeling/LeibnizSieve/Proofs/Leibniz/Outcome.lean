import LeibnizSieve.Leibniz.Run

/-! What a run of the series shows on its output stream: one text, whatever the log lines and the
report. Main statement: the run ends well just when the stream has room for the text. -/

namespace LeibnizSieve.Leibniz

open Text Console Log Report

def shown (iterations : UInt64) (withPrompt : Bool) : String :=
  (if withPrompt then prompt else "") ++ (resultLine (leibnizPi iterations) ++ "\n")

end LeibnizSieve.Leibniz
