import LeibnizSieve.CommandLine.Program
import LeibnizSieve.Proofs.CommandLine.Refusal
import LeibnizSieve.Proofs.Log.Scanning

/-! The level of a program's log lines, as it comes from the settings. It is put behind the name of
the program without a look at it. Main statement: whatever it holds, the directive is one for the
program as a whole, at a level that it spells, or the level is refused as it stands. -/

namespace LeibnizSieve.Config

open Log

variable {program level : String}

theorem logDirective_iff (h : Directive.IsTarget program.toList) {d : Directive} :
    logDirective program level = .ok d ↔
      ∃ shown, Directive.Written level.toList shown ∧ d = ⟨shown, some program, none, []⟩ := by
  rw [logDirective_eq_ok, Directive.parse_target h]
  simp only [Directive.ofTarget, String.ofList_toList]

structure Confines (program level : String) : Prop where
  /-- Only what is written for a level is accepted, and it brings its level and nothing else. -/
  accepts : ∀ d, logDirective program level = .ok d ↔
    ∃ shown, Directive.Written level.toList shown ∧ d = ⟨shown, some program, none, []⟩
  /-- A name or a number alone is accepted. -/
  spelled : ∀ shown, Spells level.toList shown →
    logDirective program level = .ok ⟨shown, some program, none, []⟩
  /-- The directive is shown with a name of its level, which makes the same directive again. -/
  displays : ∀ d, logDirective program level = .ok d →
    ∃ name ∈ ["off", "error", "warn", "info", "debug", "trace"],
      d.render = program ++ "=" ++ name ∧ logDirective program name = .ok d
  /-- What is refused is shown unchanged. -/
  refuses : ∀ error, logDirective program level = .error error → error = .badLevel level

theorem name_mem (shown : Level) :
    shown.name ∈ ["off", "error", "warn", "info", "debug", "trace"] := by
  cases shown <;> decide

theorem confines (h : Directive.IsTarget program.toList) (level : String) :
    Confines program level where
  accepts d := logDirective_iff h
  spelled shown hlevel := (logDirective_iff h).2 ⟨shown, Directive.written_of_spells hlevel, rfl⟩
  displays d hd := by
    obtain ⟨shown, -, rfl⟩ := (logDirective_iff h).1 hd
    have hne : program.toList ≠ [] := by
      obtain ⟨c, rest, hprogram, -⟩ := h
      rw [hprogram]
      exact List.cons_ne_nil c rest
    have hshown := Directive.render_ofTarget hne shown
    rw [Directive.ofTarget, String.ofList_toList] at hshown
    exact ⟨shown.name, name_mem shown, hshown,
      (logDirective_iff h).2 ⟨shown, Directive.written_name shown, rfl⟩⟩
  refuses error herror := (logDirective_eq_error.1 herror).1

theorem isTarget_series : Directive.IsTarget Leibniz.programName.toList :=
  ⟨'c', "ompute_pi".toList, by decide, by decide, by decide, by decide,
    List.all_iff_forall_prop.1 (by decide)⟩

theorem isTarget_sieve : Directive.IsTarget Sieve.programName.toList :=
  ⟨'c', "ompute_primes".toList, by decide, by decide, by decide, by decide,
    List.all_iff_forall_prop.1 (by decide)⟩

/-- No level gets out of its place, and both programs accept the same ones. -/
theorem logDirective_confined (level : String) :
    Confines Leibniz.programName level ∧ Confines Sieve.programName level ∧
    ((∃ d, logDirective Leibniz.programName level = .ok d) ↔
      ∃ d, logDirective Sieve.programName level = .ok d) := by
  have hseries := confines isTarget_series level
  have hsieve := confines isTarget_sieve level
  refine ⟨hseries, hsieve, ?_⟩
  constructor
  · rintro ⟨d, hd⟩
    obtain ⟨shown, hlevel, -⟩ := (hseries.accepts d).1 hd
    exact ⟨_, (hsieve.accepts _).2 ⟨shown, hlevel, rfl⟩⟩
  · rintro ⟨d, hd⟩
    obtain ⟨shown, hlevel, -⟩ := (hsieve.accepts d).1 hd
    exact ⟨_, (hseries.accepts _).2 ⟨shown, hlevel, rfl⟩⟩

end LeibnizSieve.Config
