import LeibnizSieve.Decimal.Fixed
import LeibnizSieve.Proofs.Decimal.Notation

/-! Reports of one line for each figure, between a heading and a rule. A figure is found by its
label at the start of a line, whatever else the report says. Main statement: where all labels have
the same width, the line that is found is the one that was written for the label. -/

namespace LeibnizSieve.Report

open Decimal

def labelled? (label text : String) : Option (List Char) :=
  (text.toList.splitOn '\n').findSome? (label.toList.isPrefixOf? ·)

def naturalBefore? (unit : String) (text : List Char) : Option ℕ :=
  match digits? text with
  | some (ds, rest) => if rest = unit.toList then some (natural ds) else none
  | none => none

def OneLine (text : String) : Prop := '\n' ∉ text.toList

instance : DecidablePred OneLine := fun text => inferInstanceAs (Decidable ('\n' ∉ text.toList))

section Lines

def unlines (lines : List String) : String := String.join (lines.map (· ++ "\n"))

theorem unlines_nil : unlines [] = "" := rfl

theorem unlines_cons (line : String) (lines : List String) :
    unlines (line :: lines) = line ++ "\n" ++ unlines lines := String.join_cons ..

theorem toList_unlines (lines : List String) :
    (unlines lines).toList = ['\n'].intercalate (lines.map String.toList ++ [[]]) := by
  induction lines with
  | nil => rfl
  | cons line lines ih =>
    rw [unlines_cons, String.toList_append, String.toList_append, ih]
    cases lines <;> simp [List.intercalate]

theorem labelled_unlines {lines : List String} (h : ∀ line ∈ lines, OneLine line) (label : String) :
    labelled? label (unlines lines) =
      (lines.map String.toList ++ [[]]).findSome? (label.toList.isPrefixOf? ·) := by
  rw [labelled?, toList_unlines, List.splitOn_intercalate _ _ (by simp)]
  intro text htext
  rcases List.mem_append.1 htext with hmem | hmem
  · obtain ⟨line, hline, rfl⟩ := List.mem_map.1 hmem
    exact h line hline
  · simp [List.mem_singleton.1 hmem]

theorem oneLine_append {a b : String} (ha : OneLine a) (hb : OneLine b) : OneLine (a ++ b) := by
  simp_all [OneLine]

theorem oneLine_of_all {text : String} (h : text.toList.all isNumberChar = true) :
    OneLine text := by
  intro hmem
  exact absurd (List.all_eq_true.1 h _ hmem) (by decide)

theorem oneLine_natural (n : ℕ) : OneLine (toString n) := by
  apply oneLine_of_all
  rw [Nat.toString_eq_ofList_toDigits, String.toList_ofList]
  exact all_isNumberChar (isDigits_toDigits n).2

theorem oneLine_sign (negative : Bool) : OneLine (if negative then "-" else "") := by
  cases negative <;> decide

theorem oneLine_text {l : Layout} (hplus : l.plus = "" ∨ l.plus = "+")
    (hnone : OneLine l.notANumber) (hinfinite : ∀ negative, OneLine (l.infinite negative))
    (x : Float) : OneLine (l.text x) := by
  rw [Layout.text]
  cases Reading.ofFloat x with
  | notANumber => exact hnone
  | infinite negative => exact hinfinite negative
  | finite negative m e =>
    exact oneLine_append (oneLine_sign negative) (oneLine_of_all (all_digitsText hplus _))

theorem oneLine_fixedText (places : ℕ) (x : Float) : OneLine (fixedText places x) := by
  have hnone : OneLine "NaN" := by decide
  have hinfinite (negative : Bool) : OneLine (if negative then "-inf" else "inf") := by
    cases negative <;> decide
  rw [fixedText]
  cases Reading.ofFloat x with
  | notANumber => exact hnone
  | infinite negative => exact hinfinite negative
  | finite negative m e =>
    refine oneLine_append (oneLine_sign negative) (oneLine_of_all ?_)
    have hwhole (n : ℕ) := all_isNumberChar (isDigits_toDigits n).2
    have hzeros (n : ℕ) : (List.replicate n '0').all isNumberChar = true := by simp [isNumberChar]
    simp only [unitsText, paddedDigits, String.toList_append, String.toList_ofList, List.all_append,
      hwhole, hzeros]
    rfl

theorem naturalBefore_toDigits (unit : String) (h : EndsDigits unit.toList) (n : ℕ) :
    naturalBefore? unit (Nat.toDigits 10 n ++ unit.toList) = some n := by
  rw [naturalBefore?, digits_append (isDigits_toDigits n) h]
  simp [natural_toDigits]

theorem naturalBefore_end (n : ℕ) : naturalBefore? "" (Nat.toDigits 10 n) = some n := by
  simpa using naturalBefore_toDigits "" (by simp [EndsDigits]) n

theorem naturalBefore_milliseconds (n : ℕ) :
    naturalBefore? " ms" (Nat.toDigits 10 n ++ [' ', 'm', 's']) = some n :=
  naturalBefore_toDigits " ms" (by simp [EndsDigits]) n

end Lines

section Sheets

def sheet (heading : String) (fields : List (String × String)) (rule : String) : String :=
  unlines (heading :: fields.map (fun f => f.1 ++ f.2) ++ [rule])

theorem isPrefixOf_append {label other : List Char} (h : label.length = other.length)
    (text : List Char) :
    label.isPrefixOf? (other ++ text) = if other = label then some text else none := by
  induction label generalizing other with
  | nil =>
    rw [List.length_eq_zero_iff.1 h.symm]
    rfl
  | cons c label ih =>
    cases other with
    | nil => cases h
    | cons d other =>
      have hlength : label.length = other.length := Nat.succ.inj h
      rw [List.cons_append, List.isPrefixOf?]
      by_cases hc : c = d
      · simp [hc, ih hlength]
      · simp [hc, Ne.symm hc]

/-- A label of a given width and a figure, neither of which ends a line. -/
structure IsField (width : ℕ) (f : String × String) : Prop where
  label : OneLine f.1
  figure : OneLine f.2
  width : f.1.toList.length = width

theorem isField {width : ℕ} {label figure : String}
    (hlabel : OneLine label ∧ label.toList.length = width) (hfigure : OneLine figure) :
    IsField width (label, figure) := ⟨hlabel.1, hfigure, hlabel.2⟩

variable {width : ℕ} {heading rule label : String} {fields : List (String × String)}

theorem findSome_fields (hfields : ∀ f ∈ fields, IsField width f)
    (hlabel : label.toList.length = width) :
    (fields.map fun f => (f.1 ++ f.2).toList).findSome? (label.toList.isPrefixOf? ·) =
      (fields.lookup label).map String.toList := by
  induction fields with
  | nil => rfl
  | cons f fields ih =>
    obtain ⟨name, figure⟩ := f
    have hothers := ih fun g hg => hfields g (List.mem_cons_of_mem _ hg)
    have hlength := hlabel.trans (hfields (name, figure) List.mem_cons_self).width.symm
    rw [List.map_cons, List.findSome?_cons, String.toList_append,
      isPrefixOf_append hlength figure.toList, hothers, List.lookup_cons]
    by_cases heq : name = label
    · rw [if_pos (congrArg String.toList heq)]
      simp [heq]
    · rw [if_neg (fun hlist => heq (String.toList_inj.1 hlist))]
      simp [beq_false_of_ne (Ne.symm heq)]

theorem oneLine_sheet (hheading : OneLine heading) (hrule : OneLine rule)
    (hfields : ∀ f ∈ fields, IsField width f) :
    ∀ line ∈ heading :: fields.map (fun f => f.1 ++ f.2) ++ [rule], OneLine line := by
  intro line hline
  simp only [List.cons_append, List.mem_cons, List.mem_append, List.mem_map, List.not_mem_nil,
    or_false] at hline
  rcases hline with rfl | ⟨f, hf, rfl⟩ | rfl
  · exact hheading
  · exact oneLine_append (hfields f hf).label (hfields f hf).figure
  · exact hrule

theorem labelled_sheet (hheading : OneLine heading) (hrule : OneLine rule)
    (hfields : ∀ f ∈ fields, IsField width f) (hlabel : label.toList.length = width)
    (hother : ∀ line ∈ [heading, rule, ""], label.toList.isPrefixOf? line.toList = none) :
    labelled? label (sheet heading fields rule) = (fields.lookup label).map String.toList := by
  have hfirst := hother heading (by simp)
  have hlast := hother rule (by simp)
  have hend : label.toList.isPrefixOf? [] = none := hother "" (by simp)
  rw [sheet, labelled_unlines (oneLine_sheet hheading hrule hfields),
    ← findSome_fields hfields hlabel]
  simp only [List.cons_append, List.map_cons, List.map_append, List.map_map, List.findSome?_cons,
    List.findSome?_append, List.map_nil, List.findSome?_nil, hfirst, hlast, hend, Option.or_none]
  rfl

end Sheets

end LeibnizSieve.Report
