import LeibnizSieve.Proofs.Json.Writing
import LeibnizSieve.Proofs.Report.Lines
import LeibnizSieve.Proofs.Sieve.Outcome
import LeibnizSieve.Proofs.Sieve.Primality
import Mathlib.NumberTheory.PrimeCounting

/-! Figures read back from a report about a sieve, by label from its lines or by name from its
object. Main statements: both forms give back what was reported, the object with milliseconds cut to
a word, and differ in nothing else; what a run reports is the limit, and the number of primes up to
there if the sieve was completed. -/

namespace LeibnizSieve.Json

def Value.natural? : Value → Option ℕ
  | .number false ⟨n, 0⟩ => some n
  | _ => none

def Value.string? : Value → Option String
  | .string text => some text
  | _ => none

end LeibnizSieve.Json

namespace LeibnizSieve.Sieve

open Text Console Files Report Json Decimal

theorem Outcome.name_inj {a b : Outcome} (h : a.name = b.name) : a = b := by
  revert h
  cases a <;> cases b <;> decide

structure Figures where
  limit : ℕ
  outcome : String
  primeCount : Option ℕ
  milliseconds : ℕ
  deriving DecidableEq, Repr

namespace Figures

def ofHuman? (text : String) : Option Figures := do
  let milliseconds ← naturalBefore? " ms" (← labelled? "Wall clock:  " text)
  let limit ← naturalBefore? "" (← labelled? "Limit:       " text)
  let outcome ← labelled? "Outcome:     " text
  let primeCount ← match labelled? "Primes:      " text with
    | some line => (naturalBefore? "" line).map some
    | none => some none
  return ⟨limit, String.ofList outcome, primeCount, milliseconds⟩

def ofMembers? (members : List (String × Value)) : Option Figures := do
  let milliseconds ← (← members.lookup "wall_clock_ms").natural?
  let limit ← (← members.lookup "limit").natural?
  let outcome ← (← members.lookup "outcome").string?
  let primeCount ← match members.lookup "prime_count" with
    | some v => v.natural?.map some
    | none => some none
  return ⟨limit, outcome, primeCount, milliseconds⟩

def ofJson? (text : String) : Option Figures :=
  match Json.read? text with
  | some (.object members) => ofMembers? members
  | _ => none

def read? (format : Format) (text : String) : Option Figures :=
  match format with
  | .human => ofHuman? text
  | .json => ofJson? text

def ofBytes? (format : Format) (bytes : Bytes) : Option Figures :=
  (ofUtf8? bytes).bind (read? format)

end Figures

namespace ReportData

variable (d : ReportData)

def figures (milliseconds : ℕ) : Figures :=
  ⟨d.limit.toNat, d.outcome.name, d.primeCount.map UInt64.toNat, milliseconds⟩

section Human

def fields : List (String × String) :=
  [("Wall clock:  ", toString d.elapsed.milliseconds ++ " ms"),
    ("Limit:       ", toString d.limit.toNat), ("Outcome:     ", d.outcome.name)] ++
  (match d.primeCount with
    | some count => [("Primes:      ", toString count.toNat)]
    | none => [])

theorem human_eq : d.human = sheet "=== PRIMES REPORT ===" d.fields "=====================" := by
  have hfirst : "=== PRIMES REPORT ===\n" = "=== PRIMES REPORT ===" ++ "\n" := rfl
  have hunit : " ms\n" = " ms" ++ "\n" := rfl
  have hlast : "=====================\n" = "=====================" ++ "\n" := rfl
  unfold human fields sheet
  rw [hfirst, hunit, hlast]
  cases d.primeCount with
  | none =>
    simp only [List.cons_append, List.nil_append, List.append_nil, List.map_cons, List.map_nil,
      unlines_cons, unlines_nil, String.append_assoc, String.append_empty]
  | some count =>
    simp only [List.cons_append, List.nil_append, List.map_cons, List.map_nil, unlines_cons,
      unlines_nil, String.append_assoc, String.append_empty]

theorem isField_of_mem {f : String × String} (h : f ∈ d.fields) : IsField 13 f := by
  have houtcome : OneLine d.outcome.name := by cases d.outcome <;> decide
  have hmilliseconds : OneLine (toString d.elapsed.milliseconds ++ " ms") :=
    oneLine_append (oneLine_natural _) (by decide)
  revert f
  rw [fields, List.forall_mem_append]
  refine ⟨?_, ?_⟩
  · simp only [List.forall_mem_cons]
    exact ⟨isField (by decide) hmilliseconds, isField (by decide) (oneLine_natural _),
      isField (by decide) houtcome, nofun⟩
  · cases d.primeCount with
    | none => nofun
    | some count =>
      simp only [List.forall_mem_cons]
      exact ⟨isField (by decide) (oneLine_natural _), nofun⟩

theorem labelled_human (label : String) (hlabel : label.toList.length = 13)
    (hother : ∀ line ∈ ["=== PRIMES REPORT ===", "=====================", ""],
      label.toList.isPrefixOf? line.toList = none) :
    labelled? label d.human = (d.fields.lookup label).map String.toList := by
  rw [human_eq]
  exact labelled_sheet (by decide) (by decide) (fun _ => d.isField_of_mem) hlabel hother

theorem ofHuman_human : Figures.ofHuman? d.human = some (d.figures d.elapsed.milliseconds) := by
  have hmilliseconds := d.labelled_human "Wall clock:  " (by decide) (by decide)
  have hlimit := d.labelled_human "Limit:       " (by decide) (by decide)
  have houtcome := d.labelled_human "Outcome:     " (by decide) (by decide)
  have hcount := d.labelled_human "Primes:      " (by decide) (by decide)
  rw [Figures.ofHuman?, hmilliseconds, hlimit, houtcome, hcount, fields, figures]
  cases d.primeCount with
  | none => simp [List.lookup_cons, naturalBefore_end, naturalBefore_milliseconds]
  | some count => simp [List.lookup_cons, naturalBefore_end, naturalBefore_milliseconds]

end Human

section Object

def members : List (String × Value) :=
  [("limit", .number false ⟨d.limit.toNat, 0⟩), ("outcome", .string d.outcome.name)] ++
  (match d.primeCount with
    | some count => [("prime_count", .number false ⟨count.toNat, 0⟩)]
    | none => []) ++
  [("wall_clock_ms", .number false ⟨d.elapsed.milliseconds % 2 ^ 64, 0⟩)]

theorem read_json {after : String} (hafter : skipSpace after.toList = []) :
    Json.read? (d.json ++ after) = some (.object d.members) := by
  have hlimit := spells_natural d.limit.toNat
  have houtcome : Spells (.word d.outcome.name) (.string d.outcome.name) :=
    spells_word (by cases d.outcome <;> simp [IsPlain, Outcome.name])
  have hmilliseconds := spells_natural (d.elapsed.milliseconds % 2 ^ 64)
  refine read_jsonObject ?_ hafter
  rw [members]
  cases d.primeCount with
  | none =>
    exact .cons (by simp [IsPlain]) hlimit (.cons (by simp [IsPlain]) houtcome
      (.cons (by simp [IsPlain]) hmilliseconds .nil))
  | some count =>
    exact .cons (by simp [IsPlain]) hlimit (.cons (by simp [IsPlain]) houtcome
      (.cons (by simp [IsPlain]) (spells_natural count.toNat)
        (.cons (by simp [IsPlain]) hmilliseconds .nil)))

theorem ofJson_json {after : String} (hafter : skipSpace after.toList = []) :
    Figures.ofJson? (d.json ++ after) = some (d.figures (d.elapsed.milliseconds % 2 ^ 64)) := by
  rw [Figures.ofJson?, d.read_json hafter, members, figures]
  cases d.primeCount <;> rfl

theorem compact_json : Compact d.json.toList := by
  have hname : ∀ name ∈ ["limit", "outcome", "prime_count", "wall_clock_ms"],
      Compact name.toList := by
    simp [Compact, isSpace]
  have houtcome : Compact (JsonValue.word d.outcome.name).text.toList := by
    cases d.outcome <;> simp [JsonValue.text, Outcome.name, Compact, isSpace]
  simp only [List.forall_mem_cons] at hname
  obtain ⟨hlimit, hword, hcount, hclock, -⟩ := hname
  apply compact_jsonObject
  simp only [List.forall_mem_append, List.forall_mem_cons]
  refine ⟨⟨⟨⟨hlimit, compact_natural _⟩, ⟨hword, houtcome⟩, List.forall_mem_nil _⟩, ?_⟩,
    ⟨hclock, compact_natural _⟩, List.forall_mem_nil _⟩
  cases d.primeCount with
  | none => exact List.forall_mem_nil _
  | some count =>
    simp only [List.forall_mem_cons]
    exact ⟨⟨hcount, compact_natural _⟩, List.forall_mem_nil _⟩

end Object

theorem read_text (r : Request) : ∃ milliseconds,
    Figures.read? r.format (r.text d.rendering) = some (d.figures milliseconds) := by
  rw [Request.text, rendering]
  cases r.format with
  | human => exact ⟨_, d.ofHuman_human⟩
  | json => exact ⟨_, d.ofJson_json rfl⟩

theorem read_bytes (r : Request) : ∃ milliseconds,
    Figures.ofBytes? r.format (utf8 (r.text d.rendering)) = some (d.figures milliseconds) := by
  obtain ⟨milliseconds, hread⟩ := d.read_text r
  refine ⟨milliseconds, ?_⟩
  rw [Figures.ofBytes?, ofUtf8_utf8, Option.bind_some, hread]

theorem ofJson_alone :
    Figures.ofJson? d.json = some (d.figures (d.elapsed.milliseconds % 2 ^ 64)) := by
  have hread : Figures.ofJson? (d.json ++ "") = _ := d.ofJson_json rfl
  rwa [String.append_empty] at hread

theorem labelled_primes :
    (labelled? "Primes:      " d.human).isSome = true ↔ d.primeCount.isSome = true := by
  rw [d.labelled_human "Primes:      " (by decide) (by decide), fields]
  cases d.primeCount <;> simp [List.lookup_cons]

theorem figures_inj {d' : ReportData} {milliseconds milliseconds' : ℕ}
    (h : d.figures milliseconds = d'.figures milliseconds') :
    d.limit = d'.limit ∧ d.outcome = d'.outcome ∧ d.primeCount = d'.primeCount := by
  rw [figures, figures, Figures.mk.injEq] at h
  obtain ⟨hlimit, houtcome, hcount, -⟩ := h
  exact ⟨UInt64.toNat_inj.1 hlimit, Outcome.name_inj houtcome,
    Option.map_injective (fun _ _ => UInt64.toNat_inj.1) hcount⟩

/-- Both forms give back the data, each in its own way. They differ in the milliseconds alone, which
the object cuts to a word. -/
theorem forms_readBack :
    Compact d.json.toList ∧
    Json.read? d.json = some (.object (
      [("limit", .number false ⟨d.limit.toNat, 0⟩), ("outcome", .string d.outcome.name)] ++
      (match d.primeCount with
        | some count => [("prime_count", .number false ⟨count.toNat, 0⟩)]
        | none => []) ++
      [("wall_clock_ms", .number false ⟨d.elapsed.milliseconds % 2 ^ 64, 0⟩)])) ∧
    Figures.ofJson? d.json = some ⟨d.limit.toNat, d.outcome.name, d.primeCount.map UInt64.toNat,
      d.elapsed.milliseconds % 2 ^ 64⟩ ∧
    Figures.ofHuman? d.human = some ⟨d.limit.toNat, d.outcome.name, d.primeCount.map UInt64.toNat,
      d.elapsed.milliseconds⟩ ∧
    ((labelled? "Primes:      " d.human).isSome = true ↔ d.primeCount.isSome = true) ∧
    (∀ d' : ReportData, d.json = d'.json →
      d.limit = d'.limit ∧ d.outcome = d'.outcome ∧ d.primeCount = d'.primeCount) ∧
    ((Figures.ofJson? d.json).map Figures.milliseconds =
      (Figures.ofHuman? d.human).map Figures.milliseconds ↔ d.elapsed.milliseconds < 2 ^ 64) := by
  have hobject : Json.read? (d.json ++ "") = _ := d.read_json rfl
  rw [String.append_empty] at hobject
  refine ⟨d.compact_json, hobject, d.ofJson_alone, d.ofHuman_human, d.labelled_primes, ?_, ?_⟩
  · intro d' hjson
    have hfigures := d'.ofJson_alone
    rw [← hjson, d.ofJson_alone, Option.some.injEq] at hfigures
    exact d.figures_inj hfigures
  · rw [d.ofJson_alone, d.ofHuman_human, Option.map_some, Option.map_some, Option.some.injEq]
    exact Nat.mod_eq_iff_lt (by decide)

end ReportData

section Run

theorem flags_run (limit : UInt64) : ((Sweep.start limit).run limit).flags.toList =
    (List.range (limit.toNat + 1)).map fun k => decide k.Prime := by
  apply List.ext_getElem?
  intro k
  rw [Array.getElem?_toList, List.getElem?_map]
  by_cases hk : k ≤ limit.toNat
  · rw [run_start_flag limit hk, List.getElem?_range (by omega)]
    rfl
  · have hsize : ((Sweep.start limit).run limit).flags.size = limit.toNat + 1 := by
      rw [size_run, size_start]
    rw [Array.getElem?_eq_none (by omega), List.getElem?_eq_none (by simp; omega)]
    rfl

theorem count_run (limit : UInt64) :
    ((Sweep.start limit).run limit).flags.count true = Nat.primeCounting limit.toNat := by
  rw [← Array.count_toList, flags_run, Nat.primeCounting, Nat.primeCounting', Nat.count, List.count,
    List.countP_map]
  congr 1
  funext k
  simp

theorem toNat_count {capacity : Nat} {limit : UInt64} (h : reserve capacity limit = .ok ()) :
    (UInt64.ofNat (Nat.primeCounting limit.toNat)).toNat = Nat.primeCounting limit.toNat := by
  have hle : Nat.primeCounting limit.toNat ≤ limit.toNat + 1 := Nat.count_le Nat.Prime
  rw [reserve_eq_ok_iff] at h
  exact UInt64.toNat_ofNat_of_lt' (hle.trans_lt h.1)

/-- What a run reports of a sieve: how it ended, and just when it was completed the number of
primes. -/
structure Counted (capacity : ℕ) (limit : UInt64) (outcome : Outcome) (count : Option UInt64) :
    Prop where
  done : reserve capacity limit = .ok () →
    outcome = .done ∧ count.map UInt64.toNat = some (Nat.primeCounting limit.toNat)
  aborted : ∀ e, reserve capacity limit = .error e → outcome = .aborted ∧ count = none

theorem exists_counted (capacity : ℕ) (limit : UInt64) (policy : Policy) (s : Session) :
    ∃ outcome count, Counted capacity limit outcome count ∧
      (conclude capacity limit policy s).rendering =
        some fun elapsed => ReportData.rendering ⟨limit, outcome, count, elapsed⟩ := by
  cases hr : reserve capacity limit with
  | ok u =>
    obtain ⟨table, htable, hflags⟩ := sieve_of_reserve hr
    have hcount : table.count = Nat.primeCounting limit.toNat := by
      rw [PrimeTable.count, hflags, count_run]
    refine ⟨.done, some (UInt64.ofNat table.count), ⟨fun _ => ⟨rfl, ?_⟩, ?_⟩, ?_⟩
    · rw [hcount, Option.map_some, toNat_count hr]
    · intro e h
      rw [hr] at h
      cases h
    · rw [conclude_done htable]
  | error e =>
    refine ⟨.aborted, none, ⟨?_, fun _ _ => ⟨rfl, rfl⟩⟩, ?_⟩
    · intro h
      rw [hr] at h
      cases h
    · rw [conclude_aborted (sieve_of_refusal hr)]

/-- What is said before the report does not depend on the room for it. -/
theorem exists_said (capacity : ℕ) (limit : UInt64) (policy : Policy) (out : Sink) (v : Volume)
    (listener : Option Listener) : ∃ said, ∀ room,
      (conclude capacity limit policy ⟨out, Sink.empty room, v, listener⟩).session.err =
        (Sink.empty room).take said := by
  let s : Session := ⟨out, Sink.empty none, v, listener⟩
  cases h : sieve capacity limit with
  | ok table =>
    refine ⟨utf8 (s.heard (sieving limit) ++ s.heard (sieved limit)), fun room => ?_⟩
    rw [conclude_done h]
    rfl
  | error e =>
    refine ⟨utf8 (s.heard (sieving limit) ++ s.heard (abortedEvent limit e) ++ complaint policy e),
      fun room => ?_⟩
    rw [conclude_aborted h]
    rfl

theorem Counted.figures {capacity : ℕ} {limit : UInt64} {outcome : Outcome}
    {count : Option UInt64} (h : Counted capacity limit outcome count) (elapsed : Elapsed)
    (milliseconds : ℕ) :
    let figures := ReportData.figures ⟨limit, outcome, count, elapsed⟩ milliseconds
    figures.limit = limit.toNat ∧
    (reserve capacity limit = .ok () → figures.outcome = "done" ∧
      figures.primeCount = some (Nat.primeCounting limit.toNat)) ∧
    (∀ e, reserve capacity limit = .error e → figures.outcome = "aborted" ∧
      figures.primeCount = none) ∧
    (figures.primeCount.isSome = true ↔ figures.outcome = "done") ∧
    ∀ count, figures.primeCount = some count → count = Nat.primeCounting figures.limit := by
  cases hr : reserve capacity limit with
  | ok u =>
    obtain ⟨rfl, hcount⟩ := h.done hr
    dsimp only [ReportData.figures]
    rw [hcount]
    refine ⟨rfl, fun _ => ⟨rfl, rfl⟩, nofun, iff_of_true rfl rfl, ?_⟩
    rintro _ ⟨⟩
    rfl
  | error e =>
    obtain ⟨rfl, rfl⟩ := h.aborted e hr
    exact ⟨rfl, nofun, fun _ _ => ⟨rfl, rfl⟩, iff_of_false (by simp [ReportData.figures])
      (by simp [ReportData.figures, Outcome.name]), nofun⟩

/-- The bytes of the report stand behind what the run says without one, on the error stream or, if
the file takes them, in the file; and whoever reads them finds the limit, how the sieve ended, and
just when it was completed the number of primes. -/
theorem run_figures (capacity : ℕ) (limit : UInt64) (policy : Policy) (request : Request)
    (elapsed : Elapsed) (out : Sink) (room : Room) (v : Volume) (listener : Option Listener) :
    let before (room : Room) : Session := ⟨out, Sink.empty room, v, listener⟩
    let said := (run capacity limit policy none elapsed (before none)).1.err.written
    let after := (run capacity limit policy (some request) elapsed (before room)).1
    ∃ report figures, Figures.ofBytes? request.format report = some figures ∧
      (request.destination = .errorStream → Sink.Received room (said ++ report) after.err) ∧
      (∀ path, request.destination = .file path →
        let diverted (e : FileError) := Sink.Received room
          (said ++ (utf8 (diversion programName (before room) path e) ++ report)) after.err
        (∀ e, v.create (utf8 path) = .error e → diverted e) ∧
        ∀ created place, v.create (utf8 path) = .ok (created, place) →
          (∀ e, (created.fill place report).1 = .error e → diverted e) ∧
          ((created.fill place report).1 = .ok () → Sink.Received room said after.err ∧
            (¬ v.Device place → after.volume.entryAt place = some (.file report)))) ∧
      figures.limit = limit.toNat ∧
      (reserve capacity limit = .ok () → figures.outcome = "done" ∧
        figures.primeCount = some (Nat.primeCounting limit.toNat)) ∧
      (∀ e, reserve capacity limit = .error e → figures.outcome = "aborted" ∧
        figures.primeCount = none) ∧
      (figures.primeCount.isSome = true ↔ figures.outcome = "done") ∧
      ∀ count, figures.primeCount = some count → count = Nat.primeCounting figures.limit := by
  intro before said after
  obtain ⟨outcome, count, hcounted, hrendering⟩ :=
    exists_counted capacity limit policy (before room)
  obtain ⟨said', hsaid⟩ := exists_said capacity limit policy out v listener
  have hwritten : said = said' := congrArg Sink.written (hsaid none)
  let d : ReportData := ⟨limit, outcome, count, elapsed⟩
  obtain ⟨milliseconds, hread⟩ := d.read_bytes request
  have hafter : after = deliver programName request d.rendering
      (conclude capacity limit policy (before room)).session :=
    report_session hrendering programName request elapsed
  have hreport := delivered programName request d.rendering (hsaid room)
  rw [← hafter, ← hwritten] at hreport
  have hvolume : (conclude capacity limit policy (before room)).session.volume = v :=
    conclude_volume ..
  have hdiversion := diversion_congr (conclude_listener capacity limit policy (before room))
    programName
  refine ⟨utf8 (request.text d.rendering), _, hread, ?_, ?_, hcounted.figures elapsed _⟩
  · intro hr
    exact (hreport.stream hr).1
  · intro path hr diverted
    refine ⟨?_, ?_⟩
    · intro e he
      have hdiverted := (hreport.refused path e hr (by rw [hvolume, he])).1
      rwa [hdiversion, utf8_append] at hdiverted
    · intro created place hc
      refine ⟨?_, ?_⟩
      · intro e he
        have hdiverted := (hreport.part path created place e hr (by rw [hvolume, hc]) he).1
        rwa [hdiversion, utf8_append] at hdiverted
      · intro hok
        obtain ⟨hstream, -, hfile⟩ := hreport.whole path created place hr (by rw [hvolume, hc]) hok
        rw [hvolume] at hfile
        exact ⟨hstream, fun hd => (hfile hd).1⟩

theorem run_figures_ten : ∃ figures,
    Figures.ofBytes? .json (run 11 10 .silent (some ⟨.json, .errorStream⟩) ⟨0, 0⟩
      ⟨Sink.empty none, Sink.empty none, ⟨[], [], none, []⟩, none⟩).1.err.written = some figures ∧
    figures.limit = 10 ∧ figures.outcome = "done" ∧ figures.primeCount = some 4 := by
  have hr : reserve 11 10 = .ok () := by rw [reserve_eq_ok_iff]; decide
  obtain ⟨report, figures, hread, hstream, -, hlimit, hdone, -⟩ :=
    run_figures 11 10 .silent ⟨.json, .errorStream⟩ ⟨0, 0⟩ (Sink.empty none) none
      ⟨[], [], none, []⟩ none
  refine ⟨figures, ?_, hlimit, (hdone hr).1, ?_⟩
  · rw [(hstream rfl).written]
    exact hread
  · rw [(hdone hr).2]
    decide +kernel

end Run

end LeibnizSieve.Sieve
