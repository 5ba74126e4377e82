/-!
Texts that a program shows but does not make: those of the reader of documents, of the runtime and
of the generator of completion scripts. A run is given them and passes them on as they are.
-/

namespace LeibnizSieve.Console

/-- Why the runtime stops a program where it stands. -/
inductive Stop where
  | outputRefused
  | cutCharacter
  deriving DecidableEq, Repr

def stoppedStatus : Nat := 101

structure Words where
  /-- Said of the document of the run by a reader to whom it is none. -/
  malformed : String := ""
  stopped : Stop → String := fun _ => ""
  /-- The script for a program and the shell of a name. -/
  completions : String → String → String := fun program shell => program ++ " " ++ shell ++ "\n"

end LeibnizSieve.Console
