import LeibnizSieve.CommandLine.Program
import LeibnizSieve.Proofs.Attempt
import LeibnizSieve.Proofs.Log.Offsets
import Mathlib.Control.Monad.Basic

/-! Settings that cannot be used end a program before it has done anything. There are three ways to
fail, one after the other: the bytes are no text, the text is no settings, the level is no
directive. Main statements: each run either has usable settings or one error of one kind, and then
the error is all that is seen of it; the series program has no other way to end with status 1. -/

namespace LeibnizSieve.Config

open Text Files

inductive ConfigError.Kind where
  | read
  | parse
  | logDirective
  deriving DecidableEq, Repr

def ConfigError.kind : ConfigError → Kind
  | .unreadable .. => .read
  | .malformed | .undecodable .. => .parse
  | .badLevel _ => .logDirective

namespace Schema

variable {α : Type} {s : Schema α} {v : Volume} {path : Option Bytes}

def Source (s : Schema α) (v : Volume) : Option Bytes → String → Prop
  | none, text => text = s.defaultText
  | some path, text => v.read path = .ok (utf8 text)

theorem Source.load {text : String} (h : s.Source v path text) : s.load v path = s.ofText text := by
  cases path with
  | none => rw [show text = s.defaultText from h, Schema.load]
  | some path => rw [Schema.load, Volume.readText_eq_ok.2 h, ofFile]

theorem Source.unique {text text' : String} (h : s.Source v path text)
    (h' : s.Source v path text') : text = text' := by
  cases path with
  | none => exact h.trans h'.symm
  | some path =>
    have hread := Volume.readText_eq_ok.2 h
    rw [Volume.readText_eq_ok.2 h'] at hread
    cases hread
    rfl

theorem source_or_refused (s : Schema α) (v : Volume) (path : Option Bytes) :
    (∃ text, s.Source v path text) ∨
      ∃ p cause, path = some p ∧ v.readText p = .error cause := by
  cases path with
  | none => exact .inl ⟨_, rfl⟩
  | some path =>
    cases h : v.readText path with
    | ok text => exact .inl ⟨text, Volume.readText_eq_ok.1 h⟩
    | error cause => exact .inr ⟨path, cause, rfl, h⟩

theorem kind_ofText {text : String} {error : ConfigError} (h : s.ofText text = .error error) :
    error.kind = .parse := by
  unfold ofText at h
  split at h
  · cases h
    rfl
  · split at h
    · cases h
    · cases h
      rfl

end Schema

theorem logDirective_eq_ok {program level : String} {d : Log.Directive} :
    logDirective program level = .ok d ↔
      Log.Directive.parse (program.toList ++ '=' :: level.toList) = .ok d := by
  unfold logDirective
  split
  · next h => rw [h, Except.ok.injEq, Except.ok.injEq]
  · next h =>
    rw [h]
    constructor <;> intro h <;> cases h

theorem logDirective_eq_error {program level : String} {error : ConfigError} :
    logDirective program level = .error error ↔ error = .badLevel level ∧
      ∃ cause, Log.Directive.parse (program.toList ++ '=' :: level.toList) = .error cause := by
  unfold logDirective
  split
  · next h => simp [h]
  · next cause h => simp [h, eq_comm]

end LeibnizSieve.Config

namespace LeibnizSieve.CommandLine.Program

open Text Files Config Log

variable {α : Type} {p : Program α} {v : Volume} {path : Option Bytes}

def runFrom (p : Program α) (e : Surroundings) (elapsed : Report.Elapsed) (path : Option Bytes) :
    Result :=
  p.runLoaded e elapsed (p.schema.load e.volume path)

/-- The settings at a path load, and their level makes a directive. -/
def Usable (p : Program α) (v : Volume) (path : Option Bytes) (settings : Settings α)
    (directive : Directive) : Prop :=
  ∃ text, p.schema.Source v path text ∧ p.schema.ofText text = .ok settings ∧
    Directive.parse (p.name.toList ++ '=' :: settings.level.toList) = .ok directive

/-- The errors of a program, each with the step that makes it. -/
inductive Refuses (p : Program α) (v : Volume) : Option Bytes → ConfigError → Prop where
  | read {path : Bytes} {cause : FileError} : v.readText path = .error cause →
      Refuses p v (some path) (.unreadable path cause)
  | parse {path : Option Bytes} {text : String} {error : ConfigError} :
      p.schema.Source v path text → p.schema.ofText text = .error error → Refuses p v path error
  | logDirective {path : Option Bytes} {text : String} {settings : Settings α}
      {cause : Fault} : p.schema.Source v path text →
      p.schema.ofText text = .ok settings →
      Directive.parse (p.name.toList ++ '=' :: settings.level.toList) = .error cause →
      Refuses p v path (.badLevel settings.level)

theorem prepare_ok (p : Program α) (settings : Settings α) :
    p.prepare (.ok settings) =
      (Config.logDirective p.name settings.level).map fun d => (settings, d) := by
  cases h : Config.logDirective p.name settings.level with
  | ok d => simp [prepare, ok_bind, h, Except.map, pure, Except.pure]
  | error error =>
    simp only [prepare, ok_bind, h, Except.map]
    rfl

theorem prepare_error (p : Program α) (error : ConfigError) :
    p.prepare (.error error) = .error error := rfl

theorem Usable.prepare {settings : Settings α} {directive : Directive}
    (h : p.Usable v path settings directive) :
    p.prepare (p.schema.load v path) = .ok (settings, directive) := by
  obtain ⟨text, hsource, hload, hlevel⟩ := h
  rw [hsource.load, hload, prepare_ok, logDirective_eq_ok.2 hlevel]
  rfl

theorem Refuses.prepare {error : ConfigError} (h : p.Refuses v path error) :
    p.prepare (p.schema.load v path) = .error error := by
  cases h with
  | read hread => rw [Schema.load, hread, Schema.ofFile, prepare_error]
  | parse hsource hload => rw [hsource.load, hload, prepare_error]
  | logDirective hsource hload hlevel =>
    rw [hsource.load, hload, prepare_ok, logDirective_eq_error.2 ⟨rfl, _, hlevel⟩]
    rfl

/-- Every run is of one of the two kinds. -/
theorem usable_or_refuses (p : Program α) (v : Volume) (path : Option Bytes) :
    (∃ settings directive, p.Usable v path settings directive) ∨
      ∃ error, p.Refuses v path error := by
  rcases p.schema.source_or_refused v path with ⟨text, hsource⟩ | ⟨path, cause, rfl, hread⟩
  · cases hload : p.schema.ofText text with
    | error error => exact .inr ⟨error, .parse hsource hload⟩
    | ok settings =>
      cases hlevel : Directive.parse (p.name.toList ++ '=' :: settings.level.toList) with
      | ok directive => exact .inl ⟨settings, directive, text, hsource, hload, hlevel⟩
      | error cause => exact .inr ⟨_, .logDirective hsource hload hlevel⟩
  · exact .inr ⟨_, .read hread⟩

theorem Refuses.not_usable {error : ConfigError} (h : p.Refuses v path error) :
    ¬ ∃ settings directive, p.Usable v path settings directive := by
  rintro ⟨settings, directive, hu⟩
  have hp := hu.prepare
  rw [h.prepare] at hp
  cases hp

theorem Refuses.unique {error error' : ConfigError} (h : p.Refuses v path error)
    (h' : p.Refuses v path error') : error = error' := by
  have hp := h.prepare
  rw [h'.prepare] at hp
  cases hp
  rfl

theorem Refuses.kind_read {error : ConfigError} (h : p.Refuses v path error) :
    error.kind = .read ↔ ¬ ∃ text, p.schema.Source v path text := by
  cases h with
  | read hread =>
    refine iff_of_true rfl ?_
    rintro ⟨text, hsource⟩
    rw [Volume.readText_eq_ok.2 hsource] at hread
    cases hread
  | parse hsource hload =>
    rw [Schema.kind_ofText hload]
    exact iff_of_false (by decide) (not_not_intro ⟨_, hsource⟩)
  | logDirective hsource =>
    exact iff_of_false (by simp [ConfigError.kind]) (not_not_intro ⟨_, hsource⟩)

theorem Refuses.kind_parse {error : ConfigError} (h : p.Refuses v path error) :
    error.kind = .parse ↔
      ∃ text, p.schema.Source v path text ∧ ∀ settings, p.schema.ofText text ≠ .ok settings := by
  cases h with
  | read hread =>
    refine iff_of_false (by simp [ConfigError.kind]) ?_
    rintro ⟨text, hsource, -⟩
    rw [Volume.readText_eq_ok.2 hsource] at hread
    cases hread
  | parse hsource hload =>
    refine iff_of_true (Schema.kind_ofText hload) ⟨_, hsource, ?_⟩
    intro settings hok
    rw [hload] at hok
    cases hok
  | @logDirective _ _ settings _ hsource hload =>
    refine iff_of_false (by simp [ConfigError.kind]) ?_
    rintro ⟨text', hsource', hfails⟩
    rw [hsource'.unique hsource] at hfails
    exact hfails settings hload

theorem Refuses.kind_logDirective {error : ConfigError} (h : p.Refuses v path error) :
    error.kind = .logDirective ↔ ∃ text settings, p.schema.Source v path text ∧
      p.schema.ofText text = .ok settings ∧
      ∀ d, Directive.parse (p.name.toList ++ '=' :: settings.level.toList) ≠ .ok d := by
  have hread := h.kind_read
  have hparse := h.kind_parse
  constructor
  · intro hkind
    cases h with
    | read => cases hkind
    | parse hsource hload => simp [Schema.kind_ofText hload] at hkind
    | logDirective hsource hload hlevel =>
      refine ⟨_, _, hsource, hload, ?_⟩
      intro d hd
      rw [hlevel] at hd
      cases hd
  · rintro ⟨text, settings, hsource, hload, -⟩
    cases hkind : error.kind with
    | logDirective => rfl
    | read => exact absurd ⟨text, hsource⟩ (hread.1 hkind)
    | parse =>
      obtain ⟨text', hsource', hfails⟩ := hparse.1 hkind
      rw [hsource'.unique hsource] at hfails
      exact absurd hload (hfails settings)

theorem saying_nothing (e : Surroundings) (code : ℕ) (err : String) :
    saying e code "" err = ⟨code, [], utf8 err, e.volume⟩ := by
  simp only [saying, utf8_empty]
  congr
  cases e.outRoom <;> simp [Console.Room.accepts]

theorem Refuses.runFrom {e : Surroundings} {error : ConfigError}
    (h : p.Refuses e.volume path error) (elapsed : Report.Elapsed) :
    p.runFrom e elapsed path =
      ⟨1, [], utf8 ("Error: " ++ error.message e.words.malformed ++ "\n"), e.volume⟩ := by
  rw [Program.runFrom, runLoaded, h.prepare]
  exact saying_nothing e 1 _

theorem Refuses.withConclude {error : ConfigError} (h : p.Refuses v path error)
    (conclude : Console.Words → α → Console.Session → Report.Conclusion) :
    ({ p with conclude } : Program α).Refuses v path error := by
  cases h with
  | read hread => exact .read hread
  | parse hsource hload => exact .parse hsource hload
  | logDirective hsource hload hlevel => exact .logDirective hsource hload hlevel

/-- A run that ends with an error: what is seen of it, and what the kind of the error tells. Nothing
is computed, for another computation in its place would not have been noticed. -/
structure EndsWith (p : Program α) (e : Surroundings) (path : Option Bytes) (error : ConfigError) :
    Prop where
  result : ∀ elapsed, p.runFrom e elapsed path =
    ⟨1, [], utf8 ("Error: " ++ error.message e.words.malformed ++ "\n"), e.volume⟩
  computesNothing : ∀ conclude elapsed,
    ({ p with conclude } : Program α).runFrom e elapsed path = p.runFrom e elapsed path
  read : error.kind = .read ↔ ¬ ∃ text, p.schema.Source e.volume path text
  parse : error.kind = .parse ↔ ∃ text, p.schema.Source e.volume path text ∧
    ∀ settings, p.schema.ofText text ≠ .ok settings
  logDirective : error.kind = .logDirective ↔ ∃ text settings,
    p.schema.Source e.volume path text ∧ p.schema.ofText text = .ok settings ∧
    ∀ d, Directive.parse (p.name.toList ++ '=' :: settings.level.toList) ≠ .ok d

theorem Refuses.endsWith {e : Surroundings} {error : ConfigError}
    (h : p.Refuses e.volume path error) : p.EndsWith e path error where
  result := h.runFrom
  computesNothing conclude elapsed := by rw [(h.withConclude conclude).runFrom, h.runFrom]
  read := h.kind_read
  parse := h.kind_parse
  logDirective := h.kind_logDirective

theorem execute_run {arguments : List String} {config : Option String}
    (h : Request.ofArguments arguments = .ok (.run config)) (p : Program α) (e : Surroundings)
    (elapsed : Report.Elapsed) :
    p.execute e elapsed arguments = p.runFrom e elapsed (config.map utf8) := by
  rw [execute, h]
  rfl

section Begin

variable {e : Surroundings} {settings : Settings α} {directive : Directive} {filter : Filter}
  {notices : String} {s : Console.Session}

theorem begin_ok (h : filterOfEnvironment directive e.logVariable = (some filter, notices)) :
    begin e directive = .ok (listen e filter notices) := by
  rw [begin, h]

theorem begin_error (h : filterOfEnvironment directive e.logVariable = (none, notices)) :
    begin e directive = .error ⟨Console.stoppedStatus, [],
      utf8 (notices ++ e.words.stopped .cutCharacter), e.volume⟩ := by
  rw [begin, h]
  exact congrArg Except.error (saying_nothing e _ _)

theorem Usable.runFrom (h : p.Usable e.volume path settings directive)
    (hbegin : begin e directive = .ok s) (elapsed : Report.Elapsed) :
    p.runFrom e elapsed path =
      let c := p.start e settings.choice s
      let ended := c.1.report p.name c.2 elapsed
      ⟨ended.2, ended.1.out.written, ended.1.err.written, ended.1.volume⟩ := by
  rw [Program.runFrom, runLoaded, h.prepare]
  dsimp only
  rw [hbegin]

theorem Usable.stopped (h : p.Usable e.volume path settings directive) {result : Result}
    (hbegin : begin e directive = .error result) (elapsed : Report.Elapsed) :
    p.runFrom e elapsed path = result := by
  rw [Program.runFrom, runLoaded, h.prepare]
  dsimp only
  rw [hbegin]

theorem Usable.series_code {settings : Settings Bool}
    (h : seriesProgram.Usable e.volume path settings directive) (elapsed : Report.Elapsed) :
    (seriesProgram.runFrom e elapsed path).code ≠ 1 := by
  cases hread : filterOfEnvironment directive e.logVariable with
  | mk filter notices =>
    cases filter with
    | none =>
      rw [h.stopped (begin_error hread)]
      simp [Console.stoppedStatus]
    | some filter =>
      rw [h.runFrom (begin_ok hread)]
      simp only [Report.report_code, start, seriesProgram, Leibniz.conclude]
      split <;> simp [Console.stoppedStatus]

end Begin

theorem execute_code_of_not_run {arguments : List String} {request : Request}
    (h : Request.ofArguments arguments = .ok request) (hrun : ∀ config, request ≠ .run config)
    (p : Program α) (e : Surroundings) (elapsed : Report.Elapsed) :
    (p.execute e elapsed arguments).code ≠ 1 := by
  rw [execute, h]
  cases request with
  | run config => exact absurd rfl (hrun config)
  | help topic => simp [saying]
  | version => simp [saying]
  | completions shell =>
    dsimp only
    split <;> simp [saying, Console.stoppedStatus]

/-- Whatever level stands behind the name of a program, the scan of both comes to its end. -/
theorem not_stops_level (level : List Char) :
    ¬ Directive.Stops (seriesProgram.name.toList ++ '=' :: level) ∧
      ¬ Directive.Stops ((sieveProgram 0).name.toList ++ '=' :: level) := by
  have hseries : seriesProgram.name.toList = 'c' :: "ompute_pi".toList := rfl
  have hsieve : (sieveProgram 0).name.toList = 'c' :: "ompute_primes".toList := rfl
  have hhead (rest : List Char) : ¬ Directive.Stops ('c' :: rest) := by
    apply Directive.not_stops_of_head
    rintro c ⟨⟩
    decide
  rw [hseries, hsieve]
  exact ⟨hhead _, hhead _⟩

/-- Without usable settings there is an error and nothing else, and no level stops a program
instead. A command line that asks for a run comes to this, and so does status 1 of the series
program. -/
theorem refused_settings :
    (∀ {α : Type} (p : Program α) (e : Surroundings) (path : Option Bytes),
      (¬ ∃ settings directive, p.Usable e.volume path settings directive) →
      ∃ error, p.Refuses e.volume path error ∧ p.EndsWith e path error) ∧
    (∀ {α : Type} (p : Program α) (e : Surroundings) elapsed arguments config,
      Request.ofArguments arguments = .ok (.run config) →
      p.execute e elapsed arguments = p.runFrom e elapsed (config.map utf8)) ∧
    (∀ (e : Surroundings) elapsed path, (seriesProgram.runFrom e elapsed path).code = 1 →
      ¬ ∃ settings directive, seriesProgram.Usable e.volume path settings directive) ∧
    (∀ (e : Surroundings) elapsed arguments request,
      Request.ofArguments arguments = .ok request →
      (seriesProgram.execute e elapsed arguments).code = 1 →
      ∃ config, request = .run config ∧ ¬ ∃ settings directive,
        seriesProgram.Usable e.volume (config.map utf8) settings directive) ∧
    (∀ capacity (level : String),
      ¬ Directive.Stops (seriesProgram.name.toList ++ '=' :: level.toList) ∧
      ¬ Directive.Stops ((sieveProgram capacity).name.toList ++ '=' :: level.toList)) := by
  have hseries : ∀ (e : Surroundings) elapsed path,
      (seriesProgram.runFrom e elapsed path).code = 1 →
      ¬ ∃ settings directive, seriesProgram.Usable e.volume path settings directive := by
    rintro e elapsed path hcode ⟨settings, directive, h⟩
    exact h.series_code elapsed hcode
  refine ⟨?_, ?_, hseries, ?_, ?_⟩
  · intro α p e path hnone
    obtain ⟨error, h⟩ := (p.usable_or_refuses e.volume path).resolve_left hnone
    exact ⟨error, h, h.endsWith⟩
  · intro α p e elapsed arguments config h
    exact execute_run h p e elapsed
  · intro e elapsed arguments request h hcode
    by_cases hrun : ∃ config, request = .run config
    · obtain ⟨config, rfl⟩ := hrun
      rw [execute_run h] at hcode
      exact ⟨config, rfl, hseries e elapsed _ hcode⟩
    · have hne := execute_code_of_not_run h (fun config hc => hrun ⟨config, hc⟩) seriesProgram
      exact absurd hcode (hne e elapsed)
  · intro capacity level
    exact not_stops_level level.toList

theorem refused_settings_badLevel :
    let text := utf8 "log.level = \"loud\""
    let volume : Volume := ⟨[([utf8 "c"], .file text)], [], none, []⟩
    let e : Surroundings :=
      ⟨some (utf8 "trace"), some (utf8 "json:c"), some 0, volume, "now", none, {}⟩
    seriesProgram.execute e ⟨0, 0⟩ ["--config", "c"] =
      ⟨1, [], utf8 "Error: Invalid log level 'loud'\n", volume⟩ := by
  intro text volume e
  have hsource : seriesProgram.schema.Source e.volume (some (utf8 "c"))
      "log.level = \"loud\"" := rfl
  have hload : seriesProgram.schema.ofText "log.level = \"loud\"" = .ok ⟨false, "loud"⟩ := by
    decide +kernel
  have hlevel : Directive.parse "compute_pi=loud".toList = .error (.refused .badLevel) := rfl
  have h : seriesProgram.Refuses e.volume (some (utf8 "c")) (.badLevel "loud") :=
    .logDirective hsource hload hlevel
  obtain ⟨error, h', hends⟩ := refused_settings.1 seriesProgram e _ h.not_usable
  rw [refused_settings.2.1 seriesProgram e _ _ (some "c") rfl, Option.map_some, hends.result,
    ← h.unique h']
  rfl

end LeibnizSieve.CommandLine.Program
