import LeibnizSieve.Leibniz.Report
import LeibnizSieve.Proofs.Json.Writing
import LeibnizSieve.Proofs.Report.Lines

/-! Figures read back from a report about a sum. Main statement: a finite number is written so that
rounding what is written gives all of its bits, in the object and with an exponent among the lines;
only the object cuts the milliseconds to a word. -/

namespace LeibnizSieve.Leibniz

open Report Json Decimal

/-- A value of an object that stands for a float: a number that rounds to its bits and to no others,
or nothing, when the float is no number or infinite. -/
structure StandsFor (v : Value) (x : Float) : Prop where
  number : (Reading.ofFloat x).isFinite = true → ∃ negative d, v = .number negative d ∧
    ∀ y, RoundsTo negative d.value y ↔ y.toBits = x.toBits
  null : v = .null ↔ (Reading.ofFloat x).isFinite = false

theorem exists_standsFor (x : Float) : ∃ v, StandsFor v x ∧ Spells (.float x) v := by
  cases hx : (Reading.ofFloat x).isFinite with
  | true =>
    obtain ⟨negative, d, hspells, hbits⟩ := spells_float hx
    refine ⟨.number negative d, ⟨fun _ => ⟨negative, d, rfl, hbits⟩, ?_⟩, hspells⟩
    exact iff_of_false nofun (by simp [hx])
  | false => exact ⟨.null, ⟨fun h => absurd (hx.symm.trans h) (by decide), iff_of_true rfl hx⟩,
      spells_null hx⟩

namespace ReportData

variable (d : ReportData)

section Human

def fields : List (String × String) :=
  [("Wall clock:  ", toString d.elapsed.milliseconds ++ " ms"),
    ("Iterations:  ", toString d.iterations.toNat), ("Value:       ", fixedText 15 d.value),
    ("Abs error:   ", Layout.scientific.text d.absError)]

theorem human_eq : d.human = sheet "=== PI REPORT ===" d.fields "=================" := by
  have hfirst : "=== PI REPORT ===\n" = "=== PI REPORT ===" ++ "\n" := rfl
  have hunit : " ms\n" = " ms" ++ "\n" := rfl
  have hlast : "=================\n" = "=================" ++ "\n" := rfl
  unfold human fields sheet
  rw [hfirst, hunit, hlast]
  simp only [List.cons_append, List.nil_append, List.map_cons, List.map_nil, unlines_cons,
    unlines_nil, String.append_assoc, String.append_empty]

theorem isField_of_mem {f : String × String} (h : f ∈ d.fields) : IsField 13 f := by
  have hmilliseconds : OneLine (toString d.elapsed.milliseconds ++ " ms") :=
    oneLine_append (oneLine_natural _) (by decide)
  have herror : OneLine (Layout.scientific.text d.absError) :=
    oneLine_text (.inl rfl) (by decide) (by decide) _
  revert f
  simp only [fields, List.forall_mem_cons]
  exact ⟨isField (by decide) hmilliseconds, isField (by decide) (oneLine_natural _),
    isField (by decide) (oneLine_fixedText 15 _), isField (by decide) herror, nofun⟩

theorem labelled_human (label : String) (hlabel : label.toList.length = 13)
    (hother : ∀ line ∈ ["=== PI REPORT ===", "=================", ""],
      label.toList.isPrefixOf? line.toList = none) :
    labelled? label d.human = (d.fields.lookup label).map String.toList := by
  rw [human_eq]
  exact labelled_sheet (by decide) (by decide) (fun _ => d.isField_of_mem) hlabel hother

theorem labelled_milliseconds : (labelled? "Wall clock:  " d.human).bind (naturalBefore? " ms") =
    some d.elapsed.milliseconds := by
  rw [d.labelled_human "Wall clock:  " (by decide) (by decide), fields]
  simp [naturalBefore_milliseconds]

theorem labelled_absError : labelled? "Abs error:   " d.human =
    some (Layout.scientific.text d.absError).toList := by
  rw [d.labelled_human "Abs error:   " (by decide) (by decide), fields]
  simp [List.lookup_cons]

end Human

section Object

theorem read_json {value absError : Value} (hvalue : Spells (.float d.value) value)
    (herror : Spells (.float d.absError) absError) : Json.read? d.json = some (.object [
      ("abs_error", absError), ("iterations", .number false ⟨d.iterations.toNat, 0⟩),
      ("value", value), ("wall_clock_ms", .number false ⟨d.elapsed.milliseconds % 2 ^ 64, 0⟩)]) := by
  have hfields : SpellsAll
      [("abs_error", .float d.absError), ("iterations", .natural d.iterations.toNat),
        ("value", .float d.value), ("wall_clock_ms", .natural (d.elapsed.milliseconds % 2 ^ 64))]
      [("abs_error", absError), ("iterations", .number false ⟨d.iterations.toNat, 0⟩),
        ("value", value), ("wall_clock_ms", .number false ⟨d.elapsed.milliseconds % 2 ^ 64, 0⟩)] :=
    .cons (by simp [IsPlain]) herror (.cons (by simp [IsPlain]) (spells_natural _)
      (.cons (by simp [IsPlain]) hvalue (.cons (by simp [IsPlain]) (spells_natural _) .nil)))
  have hafter : skipSpace "".toList = [] := rfl
  have hread := read_jsonObject hfields hafter
  rw [String.append_empty] at hread
  exact hread

theorem compact_json : Compact d.json.toList := by
  apply compact_jsonObject
  simp only [List.forall_mem_cons]
  exact ⟨⟨by simp [Compact, isSpace], compact_float _⟩,
    ⟨by simp [Compact, isSpace], compact_natural _⟩, ⟨by simp [Compact, isSpace], compact_float _⟩,
    ⟨by simp [Compact, isSpace], compact_natural _⟩, nofun⟩

end Object

theorem mem_scientific {x : Float} (hx : (Reading.ofFloat x).isFinite = true) :
    'e' ∈ (Layout.scientific.text x).toList := by
  rw [Layout.text]
  cases hreading : Reading.ofFloat x with
  | notANumber => simp [hreading, Reading.isFinite] at hx
  | infinite negative => simp [hreading, Reading.isFinite] at hx
  | finite negative m e =>
    simp [Layout.readingText, Layout.digitsText, Layout.scientific, exponentText]

/-- The object gives back every figure; the lines give back the error and the milliseconds. -/
theorem report_readBack :
    (∃ absError value, Json.read? d.json = some (.object [
        ("abs_error", absError), ("iterations", .number false ⟨d.iterations.toNat, 0⟩),
        ("value", value), ("wall_clock_ms", .number false ⟨d.elapsed.milliseconds % 2 ^ 64, 0⟩)]) ∧
      StandsFor absError d.absError ∧ StandsFor value d.value) ∧
    Compact d.json.toList ∧
    ((Reading.ofFloat d.absError).isFinite = true → ∃ line negative magnitude,
      labelled? "Abs error:   " d.human = some line ∧ 'e' ∈ line ∧
      number? line = some ((negative, magnitude), []) ∧
      ∀ y, RoundsTo negative magnitude.value y ↔ y.toBits = d.absError.toBits) ∧
    (labelled? "Wall clock:  " d.human).bind (naturalBefore? " ms") =
      some d.elapsed.milliseconds := by
  refine ⟨?_, d.compact_json, ?_, d.labelled_milliseconds⟩
  · obtain ⟨absError, herror, hspells⟩ := exists_standsFor d.absError
    obtain ⟨value, hvalue, hspells'⟩ := exists_standsFor d.value
    exact ⟨absError, value, d.read_json hspells' hspells, herror, hvalue⟩
  · intro hfinite
    obtain ⟨negative, magnitude, hread, hbits⟩ :=
      number_text (l := Layout.scientific) (.inl rfl) hfinite
    have hline := hread [] (by simp [EndsNumber])
    rw [List.append_nil] at hline
    exact ⟨_, negative, magnitude, d.labelled_absError, mem_scientific hfinite, hline, hbits⟩

end ReportData

end LeibnizSieve.Leibniz
