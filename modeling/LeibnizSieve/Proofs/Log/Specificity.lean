import LeibnizSieve.Log.Filter
import Mathlib.Data.List.Basic
import Mathlib.Data.List.Induction

/-! Which rule of a filter decides. The rules are kept in order, a rule for the same target and
fields replaces the one before, and the first that fits is the most specific that does. Main
statement: where directives ask for no span and no field, the longest target that begins that of an
event decides, in whatever order the targets were given. -/

namespace LeibnizSieve.Log

section Rules

variable {a b r s : Rule} {f : Filter} {rs : List Rule} {e : Event}

instance Rule.transCmp : Std.TransCmp Rule.compare :=
  inferInstanceAs (Std.TransCmp (compareLex
    (compareOn fun r : Rule => r.target.map String.utf8ByteSize)
    (compareLex (compareOn fun r : Rule => r.fields.length)
      (compareLex (compareOn Rule.target) (compareOn Rule.fields)))))

theorem Rule.compare_eq_iff : a.compare b = .eq ↔ a.target = b.target ∧ a.fields = b.fields := by
  simp only [Rule.compare, Ordering.then_eq_eq]
  constructor
  · rintro ⟨-, -, htarget, hfields⟩
    exact ⟨Std.LawfulEqOrd.eq_of_compare htarget, Std.LawfulEqOrd.eq_of_compare hfields⟩
  · rintro ⟨htarget, hfields⟩
    rw [htarget, hfields]
    exact ⟨Std.ReflOrd.compare_self, Std.ReflOrd.compare_self, Std.ReflOrd.compare_self,
      Std.ReflOrd.compare_self⟩

theorem Rule.compare_self (r : Rule) : r.compare r = .eq := Rule.compare_eq_iff.2 ⟨rfl, rfl⟩

theorem Rule.fits_congr (h : a.compare b = .eq) (e : Event) : a.fits e = b.fits e := by
  obtain ⟨htarget, hfields⟩ := Rule.compare_eq_iff.1 h
  rw [Rule.fits, Rule.fits, htarget, hfields]

namespace Filter

def Sorted (f : Filter) : Prop := f.Pairwise fun a b => a.compare b = .gt

theorem mem_insert (h : Sorted f) : s ∈ insert r f ↔ s = r ∨ s ∈ f ∧ r.compare s ≠ .eq := by
  induction f with
  | nil => simp [insert]
  | cons t rest ih =>
    obtain ⟨hfirst, hrest⟩ := List.pairwise_cons.1 h
    rw [insert]
    split
    · next hgt =>
      have hbelow : ∀ x ∈ t :: rest, r.compare x ≠ .eq := by
        intro x hx
        rcases List.mem_cons.1 hx with rfl | hx
        · simp [hgt]
        · simp [Std.TransCmp.gt_trans hgt (hfirst x hx)]
      rw [List.mem_cons]
      exact or_congr_right ⟨fun hs => ⟨hs, hbelow s hs⟩, And.left⟩
    · next heq =>
      have hbelow : ∀ x ∈ rest, r.compare x ≠ .eq := by
        intro x hx
        simp [Std.TransCmp.gt_of_eq_of_gt heq (hfirst x hx)]
      rw [List.mem_cons, List.mem_cons]
      refine or_congr_right ⟨fun hs => ⟨.inr hs, hbelow s hs⟩, ?_⟩
      rintro ⟨rfl | hs, hne⟩
      · exact absurd heq hne
      · exact hs
    · next hlt =>
      rw [List.mem_cons, List.mem_cons, ih hrest]
      constructor
      · rintro (rfl | rfl | ⟨hs, hne⟩)
        · exact .inr ⟨.inl rfl, by simp [hlt]⟩
        · exact .inl rfl
        · exact .inr ⟨.inr hs, hne⟩
      · rintro (rfl | ⟨rfl | hs, hne⟩)
        · exact .inr (.inl rfl)
        · exact .inl rfl
        · exact .inr (.inr ⟨hs, hne⟩)

theorem sorted_insert (h : Sorted f) (r : Rule) : Sorted (insert r f) := by
  induction f with
  | nil => exact List.pairwise_singleton _ _
  | cons t rest ih =>
    obtain ⟨hfirst, hrest⟩ := List.pairwise_cons.1 h
    rw [insert]
    split
    · next hgt =>
      refine List.pairwise_cons.2 ⟨?_, h⟩
      intro x hx
      rcases List.mem_cons.1 hx with rfl | hx
      · exact hgt
      · exact Std.TransCmp.gt_trans hgt (hfirst x hx)
    · next heq =>
      refine List.pairwise_cons.2 ⟨?_, hrest⟩
      intro x hx
      exact Std.TransCmp.gt_of_eq_of_gt heq (hfirst x hx)
    · next hlt =>
      refine List.pairwise_cons.2 ⟨?_, ih hrest⟩
      intro x hx
      rcases (mem_insert hrest).1 hx with rfl | ⟨hx, -⟩
      · exact Std.OrientedCmp.gt_of_lt hlt
      · exact hfirst x hx

theorem find_eq_some (h : Sorted f) : f.find? (·.fits e) = some r ↔
    r ∈ f ∧ r.fits e = true ∧ ∀ s ∈ f, s.fits e = true → s.compare r ≠ .gt := by
  induction f with
  | nil => simp
  | cons t rest ih =>
    obtain ⟨hfirst, hrest⟩ := List.pairwise_cons.1 h
    by_cases ht : t.fits e = true
    · have hfind : (t :: rest).find? (·.fits e) = some t := List.find?_cons_of_pos ht
      rw [hfind, Option.some.injEq]
      constructor
      · rintro rfl
        refine ⟨List.mem_cons_self, ht, ?_⟩
        intro s hs _
        rcases List.mem_cons.1 hs with rfl | hs
        · simp [Rule.compare_self]
        · exact Std.OrientedCmp.not_gt_of_gt (hfirst s hs)
      · rintro ⟨hr, -, hmost⟩
        rcases List.mem_cons.1 hr with rfl | hr
        · rfl
        · exact absurd (hfirst r hr) (hmost t List.mem_cons_self ht)
    · have hfind : (t :: rest).find? (·.fits e) = rest.find? (·.fits e) := List.find?_cons_of_neg ht
      rw [hfind, ih hrest]
      constructor
      · rintro ⟨hr, hfits, hmost⟩
        refine ⟨List.mem_cons_of_mem _ hr, hfits, ?_⟩
        rw [List.forall_mem_cons]
        exact ⟨fun hs => absurd hs ht, hmost⟩
      · rintro ⟨hr, hfits, hmost⟩
        rw [List.forall_mem_cons] at hmost
        rcases List.mem_cons.1 hr with rfl | hr
        · exact absurd hfits ht
        · exact ⟨hr, hfits, hmost.2⟩

theorem admits_eq_true : f.admits e = true ↔
    ∃ r, f.find? (·.fits e) = some r ∧ r.level.admits e.level = true := by
  rw [admits]
  split
  · next r h => simp [h]
  · next h => simp [h]

def ofRules (rs : List Rule) : Filter := rs.foldl (fun f r => insert r f) []

theorem ofRules_concat (rs : List Rule) (s : Rule) :
    ofRules (rs ++ [s]) = insert s (ofRules rs) := by
  rw [ofRules, List.foldl_append]
  rfl

theorem sorted_ofRules (rs : List Rule) : Sorted (ofRules rs) := by
  induction rs using List.reverseRecOn with
  | nil => exact List.Pairwise.nil
  | append_singleton rs s ih =>
    rw [ofRules_concat]
    exact sorted_insert ih s

theorem mem_ofRules :
    r ∈ ofRules rs ↔ (rs.filter fun s => r.compare s = .eq).getLast? = some r := by
  induction rs using List.reverseRecOn with
  | nil => simp [ofRules]
  | append_singleton rs s ih =>
    rw [ofRules_concat, mem_insert (sorted_ofRules rs), List.filter_append, ih]
    by_cases heq : r.compare s = .eq
    · have hnot : ¬ s.compare r ≠ .eq := not_not.2 (Std.OrientedCmp.eq_symm heq)
      simp [heq, hnot, eq_comm]
    · have hne : s.compare r ≠ .eq := fun h => heq (Std.OrientedCmp.eq_symm h)
      have hother : r ≠ s := by
        rintro rfl
        exact heq (Rule.compare_self r)
      simp [heq, hne, hother]

theorem mem_of_mem_ofRules (h : r ∈ ofRules rs) : r ∈ rs :=
  (List.mem_filter.1 (List.mem_of_getLast? (mem_ofRules.1 h))).1

theorem exists_mem_ofRules (h : s ∈ rs) : ∃ r ∈ ofRules rs, s.compare r = .eq := by
  have hmem : s ∈ rs.filter fun t => s.compare t = .eq := by
    simp [h, Rule.compare_self]
  obtain ⟨r, hr⟩ : ∃ r, (rs.filter fun t => s.compare t = .eq).getLast? = some r := by
    rw [← Option.isSome_iff_exists, List.getLast?_isSome]
    exact List.ne_nil_of_mem hmem
  have hsame : s.compare r = .eq := by
    simpa using (List.mem_filter.1 (List.mem_of_getLast? hr)).2
  refine ⟨r, mem_ofRules.2 ?_, hsame⟩
  have hkind : (fun t => decide (r.compare t = .eq)) = fun t => decide (s.compare t = .eq) := by
    funext t
    rw [Std.TransCmp.congr_left hsame]
  rw [hkind, hr]

theorem admits_ofRules : (ofRules rs).admits e = true ↔ ∃ r,
    (rs.filter fun s => r.compare s = .eq).getLast? = some r ∧ r.fits e = true ∧
    (∀ s ∈ rs, s.fits e = true → s.compare r ≠ .gt) ∧ r.level.admits e.level = true := by
  simp only [admits_eq_true, find_eq_some (sorted_ofRules rs), ← mem_ofRules, and_assoc]
  refine exists_congr fun r => and_congr_right fun _ => and_congr_right fun _ =>
    and_congr_left fun _ => ?_
  constructor
  · intro hmost s hs hfits
    obtain ⟨t, ht, hsame⟩ := exists_mem_ofRules hs
    rw [Std.TransCmp.congr_left hsame]
    exact hmost t ht (Rule.fits_congr hsame e ▸ hfits)
  · intro hmost s hs
    exact hmost s (mem_of_mem_ofRules hs)

end Filter

end Rules

section Targets

variable {d d' : Directive} {ds ds' : List Directive} {e : Event}

namespace Directive

def Begins (d : Directive) (e : Event) : Prop :=
  ∀ target ∈ d.target, target.toList <+: e.target.toList

/-- The length of the target. No target at all reaches less far than an empty one. -/
def reach (d : Directive) : ℕ := d.target.elim 0 (·.length + 1)

def IsPlain (d : Directive) : Prop := d.span = none ∧ d.fields = []

def rule (d : Directive) : Rule := ⟨d.level, d.target, []⟩

theorem rule_fits : d.rule.fits e = true ↔ d.Begins e := by
  obtain ⟨level, target, span, fields⟩ := d
  cases target <;> simp [rule, Rule.fits, Begins]

theorem IsPlain.ofDirective (h : d.IsPlain) : Rule.ofDirective? d = some d.rule := by
  simp [Rule.ofDirective?, isStatic, h.1, h.2, rule]

theorem IsPlain.isDynamic (h : d.IsPlain) : d.isDynamic = false := by
  simp [Directive.isDynamic, h.1, h.2]

theorem rule_compare_eq_iff : d.rule.compare d'.rule = .eq ↔ d'.target = d.target := by
  rw [Rule.compare_eq_iff, eq_comm]
  exact and_iff_left rfl

theorem rule_compare_within {a b : String} (h : a.toList <+: b.toList) (ha : d'.target = some a)
    (hb : d.target = some b) : d'.rule.compare d.rule = compare d'.reach d.reach := by
  obtain ⟨rest, hrest⟩ := h
  obtain rfl : b = a ++ String.ofList rest := by
    rw [← String.toList_inj, String.toList_append, String.toList_ofList, hrest]
  by_cases hempty : String.ofList rest = ""
  · have hsame : d.target = d'.target := by
      rw [ha, hb, hempty, String.append_empty]
    rw [rule_compare_eq_iff.2 hsame, reach, reach, hsame]
    exact Std.ReflOrd.compare_self.symm
  · have hbytes : a.utf8ByteSize < (a ++ String.ofList rest).utf8ByteSize := by
      have hpos := mt String.utf8ByteSize_eq_zero_iff.1 hempty
      rw [String.utf8ByteSize_append]
      omega
    have hlength : a.length < (a ++ String.ofList rest).length := by
      have hpos := mt String.length_eq_zero_iff.1 hempty
      rw [String.length_append]
      omega
    have hrules : d'.rule.compare d.rule = .lt := by
      have hsize : compare (d'.rule.target.map String.utf8ByteSize)
          (d.rule.target.map String.utf8ByteSize) = .lt := by
        rw [rule, rule, ha, hb]
        exact Nat.compare_eq_lt.2 hbytes
      rw [Rule.compare, hsize]
      rfl
    have hreach : d'.reach < d.reach := by
      simp only [reach, ha, hb, Option.elim_some]
      omega
    rw [hrules, Nat.compare_eq_lt.2 hreach]

theorem rule_compare_none (ha : d'.target = none) {b : String} (hb : d.target = some b) :
    d'.rule.compare d.rule = compare d'.reach d.reach := by
  have hreach : d'.reach < d.reach := by
    rw [reach, reach, ha, hb]
    exact Nat.succ_pos b.length
  rw [Nat.compare_eq_lt.2 hreach, Rule.compare, rule, rule, ha, hb]
  rfl

theorem rule_compare (h' : d'.Begins e) (h : d.Begins e) :
    d'.rule.compare d.rule = compare d'.reach d.reach := by
  have hswap (hflipped : d.rule.compare d'.rule = compare d.reach d'.reach) :
      d'.rule.compare d.rule = compare d'.reach d.reach := by
    have hrules : d'.rule.compare d.rule = (d.rule.compare d'.rule).swap :=
      Std.OrientedCmp.eq_swap
    rw [hrules, hflipped]
    exact Std.OrientedCmp.eq_swap.symm
  cases ha : d'.target with
  | none =>
    cases hb : d.target with
    | none =>
      rw [rule_compare_eq_iff.2 (hb.trans ha.symm), reach, reach, ha, hb]
      rfl
    | some b => exact rule_compare_none ha hb
  | some a =>
    cases hb : d.target with
    | none => exact hswap (rule_compare_none hb ha)
    | some b =>
      -- both begin the same target, so one of them begins the other
      rcases List.prefix_or_prefix_of_prefix (h' a ha) (h b hb) with hab | hba
      · exact rule_compare_within hab ha hb
      · exact hswap (rule_compare_within hba hb ha)

end Directive

/-- The directive that speaks about an event: no other reaches further into its target, and of those
with the same target it is the last. -/
structure Decides (ds : List Directive) (e : Event) (d : Directive) : Prop where
  latest : (ds.filter (·.target = d.target)).getLast? = some d
  begins : d.Begins e
  longest : ∀ d' ∈ ds, d'.Begins e → d'.reach ≤ d.reach

theorem Decides.unique (h : Decides ds e d) (h' : Decides ds e d') : d = d' := by
  have hmem : d ∈ ds := (List.mem_filter.1 (List.mem_of_getLast? h.latest)).1
  have hmem' : d' ∈ ds := (List.mem_filter.1 (List.mem_of_getLast? h'.latest)).1
  have hreach : d.reach = d'.reach :=
    Nat.le_antisymm (h'.longest d hmem h.begins) (h.longest d' hmem' h'.begins)
  have htarget : d'.target = d.target := by
    rw [← Directive.rule_compare_eq_iff, Directive.rule_compare h.begins h'.begins, hreach]
    exact Std.ReflOrd.compare_self
  have hlatest := h.latest
  rw [← htarget, h'.latest] at hlatest
  exact (Option.some.inj hlatest).symm

theorem ofDirectives_plain (h : ∀ d ∈ ds, d.IsPlain) :
    Filter.ofDirectives ds = Filter.ofRules (ds.map Directive.rule) := by
  have hstatic : ds.filter (!·.isDynamic) = ds := by
    rw [List.filter_eq_self]
    intro d hd
    rw [(h d hd).isDynamic]
    rfl
  have hdynamic : ds.filter (·.isDynamic) = [] := by
    rw [List.filter_eq_nil_iff]
    intro d hd
    simp [(h d hd).isDynamic]
  have hrules : ds.filterMap Rule.ofDirective? = ds.map Directive.rule :=
    List.filterMap_eq_map_iff_forall_eq_some.2 fun d hd => (h d hd).ofDirective
  rw [Filter.ofDirectives, hstatic, hdynamic, List.append_nil, hrules, Filter.ofRules]

theorem latest_rule {r : Rule} :
    ((ds.map Directive.rule).filter fun s => r.compare s = .eq).getLast? = some r ↔
      ∃ d, (ds.filter (·.target = d.target)).getLast? = some d ∧ d.rule = r := by
  rw [List.filter_map, List.getLast?_map, Option.map_eq_some_iff]
  refine exists_congr fun d => and_congr_left ?_
  rintro rfl
  have hsame : ((fun s => decide (d.rule.compare s = .eq)) ∘ Directive.rule) =
      fun d' => decide (d'.target = d.target) := by
    funext d'
    exact decide_eq_decide.2 Directive.rule_compare_eq_iff
  rw [hsame]

theorem admits_plain (h : ∀ d ∈ ds, d.IsPlain) : (Filter.ofDirectives ds).admits e = true ↔
    ∃ d, Decides ds e d ∧ d.level.admits e.level = true := by
  rw [ofDirectives_plain h, Filter.admits_ofRules]
  constructor
  · rintro ⟨r, hlatest, hfits, hmost, hadmits⟩
    obtain ⟨d, hd, rfl⟩ := latest_rule.1 hlatest
    have hbegins := Directive.rule_fits.1 hfits
    refine ⟨d, ⟨hd, hbegins, ?_⟩, hadmits⟩
    intro d' hd' hbegins'
    have hle := hmost d'.rule (List.mem_map_of_mem hd') (Directive.rule_fits.2 hbegins')
    rw [Directive.rule_compare hbegins' hbegins] at hle
    exact Nat.compare_ne_gt.1 hle
  · rintro ⟨d, hd, hadmits⟩
    refine ⟨d.rule, latest_rule.2 ⟨d, hd.latest, rfl⟩, Directive.rule_fits.2 hd.begins, ?_, hadmits⟩
    intro s hs hfits
    obtain ⟨d', hd', rfl⟩ := List.mem_map.1 hs
    have hbegins' := Directive.rule_fits.1 hfits
    rw [Directive.rule_compare hbegins' hd.begins]
    exact Nat.compare_ne_gt.2 (hd.longest d' hd' hbegins')

def Reordered (ds ds' : List Directive) : Prop :=
  ∀ target : Option String, ds.filter (·.target = target) = ds'.filter (·.target = target)

theorem Reordered.mem (h : Reordered ds ds') : d ∈ ds ↔ d ∈ ds' := by
  have hsame := congrArg (d ∈ ·) (h d.target)
  simpa using hsame

theorem Reordered.decides (h : Reordered ds ds') : Decides ds e d ↔ Decides ds' e d := by
  constructor
  · rintro ⟨hlatest, hbegins, hlongest⟩
    exact ⟨h d.target ▸ hlatest, hbegins, fun d' hd' => hlongest d' (h.mem.2 hd')⟩
  · rintro ⟨hlatest, hbegins, hlongest⟩
    exact ⟨h d.target ▸ hlatest, hbegins, fun d' hd' => hlongest d' (h.mem.1 hd')⟩

theorem Reordered.admits (h : Reordered ds ds') (hplain : ∀ d ∈ ds, d.IsPlain) (e : Event) :
    (Filter.ofDirectives ds).admits e = (Filter.ofDirectives ds').admits e := by
  have hplain' : ∀ d ∈ ds', d.IsPlain := fun d hd => hplain d (h.mem.2 hd)
  rw [Bool.eq_iff_iff, admits_plain hplain, admits_plain hplain']
  exact exists_congr fun d => and_congr_left fun _ => h.decides

end Targets

end LeibnizSieve.Log
