import LeibnizSieve.Toml.Document

/-! In a document that was read every table has each of its keys once. Values have this property
when they are read, and assignments and headers keep it: a key is only added where none has its
name, and what is put in the place of a value goes under the same key. -/

namespace LeibnizSieve.Toml

/-- Every table in the value has each of its keys once. -/
inductive Value.Distinct : Value → Prop
  | string (span : Span) (text : String) : Distinct (.string span text)
  | integer (span : Span) (value : Int) : Distinct (.integer span value)
  | float (span : Span) (value : Float) : Distinct (.float span value)
  | boolean (span : Span) (value : Bool) : Distinct (.boolean span value)
  | datetime (span : Span) : Distinct (.datetime span)
  | array {span : Span} {elements : List Value} (h : ∀ v ∈ elements, Distinct v) :
    Distinct (.array span elements)
  | tables {span : Span} {elements : List Value} (h : ∀ v ∈ elements, Distinct v) :
    Distinct (.tables span elements)
  | table {span : Option Span} {form : TableForm} {entries : List (Key × Value)}
    (names : (entries.map fun e => e.1.name).Nodup) (values : ∀ e ∈ entries, Distinct e.2) :
    Distinct (.table span form entries)

namespace Entries

structure Distinct (entries : Entries) : Prop where
  names : (entries.map fun e => e.1.name).Nodup
  values : ∀ e ∈ entries, e.2.Distinct

variable {entries : Entries} {name : String} {v : Value}

theorem find_eq_none : entries.find? name = none ↔ ∀ e ∈ entries, e.1.name ≠ name := by
  simp [find?]

theorem find_cons (key : Key) (v : Value) (rest : Entries) (name : String) :
    find? ((key, v) :: rest) name = if key.name = name then some v else rest.find? name := by
  by_cases h : key.name = name <;> simp [find?, h]

theorem mem_of_find (h : entries.find? name = some v) :
    ∃ key, (key, v) ∈ entries ∧ key.name = name := by
  simp only [find?, Option.map_eq_some_iff] at h
  obtain ⟨⟨key, v⟩, hfound, rfl⟩ := h
  exact ⟨key, List.mem_of_find?_eq_some hfound, by simpa using List.find?_some hfound⟩

namespace Distinct

theorem nil : Distinct [] := ⟨List.nodup_nil, fun _ h => absurd h List.not_mem_nil⟩

theorem cons {key : Key} {rest : Entries} (h : Distinct ((key, v) :: rest)) :
    (∀ e ∈ rest, e.1.name ≠ key.name) ∧ rest.Distinct := by
  have hnames := List.nodup_cons.1 h.names
  refine ⟨fun e he heq => hnames.1 (List.mem_map.2 ⟨e, he, heq⟩), hnames.2, fun e he => ?_⟩
  exact h.values e (List.mem_cons_of_mem _ he)

theorem found (h : entries.Distinct) (hfound : entries.find? name = some v) : v.Distinct := by
  obtain ⟨key, hmem, -⟩ := mem_of_find hfound
  exact h.values _ hmem

theorem append {key : Key} (h : entries.Distinct) (hfree : entries.find? key.name = none)
    (hv : v.Distinct) : Distinct (entries ++ [(key, v)]) := by
  rw [find_eq_none] at hfree
  constructor
  · rw [List.map_append, List.nodup_append]
    refine ⟨h.names, List.pairwise_singleton _ _, ?_⟩
    intro a ha b hb
    obtain ⟨e, he, rfl⟩ := List.mem_map.1 ha
    obtain rfl := List.mem_singleton.1 hb
    exact hfree e he
  · intro e he
    rcases List.mem_append.1 he with he | he
    · exact h.values e he
    · obtain rfl := List.mem_singleton.1 he
      exact hv

theorem set (h : entries.Distinct) (hv : v.Distinct) : (entries.set name v).Distinct := by
  have hnames : ((entries.set name v).map fun e => e.1.name) = entries.map fun e => e.1.name := by
    rw [Entries.set, List.map_map]
    refine List.map_congr_left fun e _ => ?_
    dsimp only [Function.comp_apply]
    split <;> rfl
  constructor
  · rw [hnames]
    exact h.names
  · intro e he
    obtain ⟨e', he', rfl⟩ := List.mem_map.1 he
    split
    · exact hv
    · exact h.values e' he'

theorem erase (h : entries.Distinct) : (entries.erase name).Distinct :=
  ⟨h.names.sublist (List.filter_sublist.map _), fun e he => h.values e (List.mem_filter.1 he).1⟩

end Distinct

end Entries

theorem Value.Distinct.entries {span : Option Span} {form : TableForm} {entries : Entries}
    (h : (Value.table span form entries).Distinct) : entries.Distinct := by
  cases h with
  | table names values => exact ⟨names, values⟩

theorem Entries.Distinct.table {entries : Entries} (h : entries.Distinct) (span : Option Span)
    (form : TableForm) : (Value.table span form entries).Distinct :=
  .table h.names h.values

theorem Value.Distinct.elements {span : Span} {elements : List Value}
    (h : (Value.tables span elements).Distinct) : ∀ v ∈ elements, v.Distinct := by
  cases h with
  | tables h => exact h

section Growth

variable {entries entries' : Entries}

theorem descend_distinct {α : Type} {P : α → Prop} {dotted : Bool}
    {leaf : TableForm → Entries → Option (α × Entries)}
    (hleaf : ∀ {form inner a inner'}, Entries.Distinct inner → leaf form inner = some (a, inner') →
      P a ∧ Entries.Distinct inner')
    {path : List Key} {form : TableForm} {a : α} (h : entries.Distinct)
    (hdescend : descend dotted leaf path form entries = some (a, entries')) :
    P a ∧ entries'.Distinct := by
  induction path generalizing form entries entries' with
  | nil => exact hleaf h hdescend
  | cons key keys ih =>
    rw [descend] at hdescend
    split at hdescend
    case h_1 hnone =>
      obtain ⟨⟨a', inner⟩, hinner, heq⟩ := Option.bind_eq_some_iff.1 hdescend
      cases heq
      obtain ⟨hP, hdistinct⟩ := ih .nil hinner
      exact ⟨hP, h.append hnone (hdistinct.table _ _)⟩
    case h_2 span form inner hfound =>
      split at hdescend
      · cases hdescend
      obtain ⟨⟨a', inner'⟩, hinner, heq⟩ := Option.bind_eq_some_iff.1 hdescend
      cases heq
      obtain ⟨hP, hdistinct⟩ := ih (h.found hfound).entries hinner
      exact ⟨hP, h.set (hdistinct.table _ _)⟩
    case h_3 span elements hfound =>
      have helements := (h.found hfound).elements
      split at hdescend
      case h_1 inside form inner hlast =>
        obtain ⟨⟨a', inner'⟩, hinner, heq⟩ := Option.bind_eq_some_iff.1 hdescend
        cases heq
        have hlast' := helements _ (List.mem_of_getLast? hlast)
        obtain ⟨hP, hdistinct⟩ := ih hlast'.entries hinner
        refine ⟨hP, h.set (.tables fun v hv => ?_)⟩
        rcases List.mem_append.1 hv with hv | hv
        · exact helements v (List.dropLast_subset _ hv)
        · obtain rfl := List.mem_singleton.1 hv
          exact hdistinct.table _ _
      case h_2 => cases hdescend
    case h_4 => cases hdescend

theorem assign_distinct {a : Assignment} (h : entries.Distinct) (hv : a.value.Distinct)
    (hassign : entries.assign a = some entries') : entries'.Distinct := by
  obtain ⟨⟨u, inner⟩, hdescend, rfl⟩ := Option.map_eq_some_iff.1 hassign
  refine (descend_distinct (P := fun _ => True) ?_ h hdescend).2
  intro form inner u inner' hinner hleaf
  split at hleaf
  · cases hleaf
  split at hleaf
  · cases hleaf
  case h_2 hfree =>
    cases hleaf
    exact ⟨trivial, hinner.append hfree hv⟩

theorem assignAll_distinct {as : List Assignment} (h : entries.Distinct)
    (hvs : ∀ a ∈ as, a.value.Distinct) (hassign : entries.assignAll as = some entries') :
    entries'.Distinct := by
  induction as generalizing entries with
  | nil =>
    cases hassign
    exact h
  | cons a as ih =>
    obtain ⟨next, hnext, hrest⟩ := Option.bind_eq_some_iff.1 hassign
    have hnext' := assign_distinct h (hvs a List.mem_cons_self) hnext
    exact ih hnext' (fun b hb => hvs b (List.mem_cons_of_mem a hb)) hrest

end Growth

section Readers

variable {value : List Char → Option (Value × List Char)} {text rest : List Char}

theorem assignment_distinct {a : Assignment}
    (hvalue : ∀ {text v rest}, value text = some (v, rest) → v.Distinct)
    (h : assignment? value text = some (a, rest)) : a.value.Distinct := by
  simp only [assignment?, Option.bind_eq_bind, Option.bind_eq_some_iff] at h
  obtain ⟨_, -, _, -, ⟨v, _⟩, hv, heq⟩ := h
  cases heq
  exact hvalue hv

theorem elements_distinct (hvalue : ∀ {text v rest}, value text = some (v, rest) → v.Distinct)
    {bound : Nat} {vs : List Value} (h : elements value bound text = some (vs, rest)) :
    ∀ v ∈ vs, v.Distinct := by
  induction bound generalizing text vs rest with
  | zero => cases h
  | succ bound ih =>
    rw [elements] at h
    split at h
    · cases h
      exact fun _ hv => absurd hv List.not_mem_nil
    · obtain ⟨⟨first, _⟩, hfirst, h⟩ := Option.bind_eq_some_iff.1 h
      dsimp only at h
      split at h
      · obtain ⟨⟨others, _⟩, hothers, heq⟩ := Option.bind_eq_some_iff.1 h
        cases heq
        exact List.forall_mem_cons.2 ⟨hvalue hfirst, ih hothers⟩
      · cases h
        exact List.forall_mem_singleton.2 (hvalue hfirst)
      · cases h

theorem inlineAssignments_distinct
    (hvalue : ∀ {text v rest}, value text = some (v, rest) → v.Distinct) {bound : Nat}
    {as : List Assignment} (h : inlineAssignments value bound text = some (as, rest)) :
    ∀ a ∈ as, a.value.Distinct := by
  induction bound generalizing text as rest with
  | zero => cases h
  | succ bound ih =>
    rw [inlineAssignments] at h
    obtain ⟨⟨first, _⟩, hfirst, h⟩ := Option.bind_eq_some_iff.1 h
    dsimp only at h
    split at h
    · obtain ⟨⟨others, _⟩, hothers, heq⟩ := Option.bind_eq_some_iff.1 h
      cases heq
      exact List.forall_mem_cons.2 ⟨assignment_distinct hvalue hfirst, ih hothers⟩
    · cases h
      exact List.forall_mem_singleton.2 (assignment_distinct hvalue hfirst)
    · cases h

theorem inlineEntries_distinct
    (hvalue : ∀ {text v rest}, value text = some (v, rest) → v.Distinct) {entries : Entries}
    (h : inlineEntries? value text = some (entries, rest)) : entries.Distinct := by
  rw [inlineEntries?] at h
  split at h
  · cases h
    exact .nil
  · obtain ⟨⟨as, _⟩, has, h⟩ := Option.bind_eq_some_iff.1 h
    obtain ⟨_, hassign, heq⟩ := Option.bind_eq_some_iff.1 h
    cases heq
    exact assignAll_distinct .nil (inlineAssignments_distinct hvalue has) hassign

theorem value_distinct {depth : Nat} {v : Value} (h : value? depth text = some (v, rest)) :
    v.Distinct := by
  induction depth generalizing text v rest with
  | zero => cases h
  | succ depth ih =>
    unfold value? at h
    split at h
    iterate 2
      obtain ⟨_, -, heq⟩ := Option.bind_eq_some_iff.1 h
      cases heq
      exact .string _ _
    · obtain ⟨_, helements, heq⟩ := Option.bind_eq_some_iff.1 h
      cases heq
      exact .array (elements_distinct ih helements)
    · obtain ⟨_, hentries, heq⟩ := Option.bind_eq_some_iff.1 h
      cases heq
      exact (inlineEntries_distinct ih hentries).table _ _
    · cases h
      exact .boolean _ _
    · cases h
      exact .boolean _ _
    · split at h
      · cases h
        exact .datetime _
      · obtain ⟨⟨n, _⟩, -, h⟩ := Option.bind_eq_some_iff.1 h
        cases n <;> cases h
        · exact .integer _ _
        · exact .float _ _

end Readers

def Statement.Distinct : Statement → Prop
  | .assignment a => a.value.Distinct
  | .header .. | .repeatedHeader .. => True

theorem statement_distinct {text rest : List Char} {s : Statement}
    (h : statement? text = some (s, rest)) : s.Distinct := by
  unfold statement? at h
  split at h
  · simp only [Option.bind_eq_bind, Option.bind_eq_some_iff] at h
    obtain ⟨_, -, _, -, _, -, heq⟩ := h
    cases heq
    exact trivial
  · simp only [Option.bind_eq_bind, Option.bind_eq_some_iff] at h
    obtain ⟨_, -, _, -, heq⟩ := h
    cases heq
    exact trivial
  · obtain ⟨⟨a, _⟩, ha, heq⟩ := Option.bind_eq_some_iff.1 h
    cases heq
    exact assignment_distinct value_distinct ha

theorem statements_distinct {bound : Nat} {text : List Char} {ss : List Statement}
    (h : statements bound text = some ss) : ∀ s ∈ ss, s.Distinct := by
  induction bound generalizing text ss with
  | zero => cases h
  | succ bound ih =>
    unfold statements at h
    split at h
    · cases h
      exact fun _ hs => absurd hs List.not_mem_nil
    iterate 3
      obtain ⟨_, -, h⟩ := Option.bind_eq_some_iff.1 h
      exact ih h
    · obtain ⟨⟨first, _⟩, hfirst, h⟩ := Option.bind_eq_some_iff.1 h
      obtain ⟨_, -, h⟩ := Option.bind_eq_some_iff.1 h
      obtain ⟨others, hothers, heq⟩ := Option.bind_eq_some_iff.1 h
      cases heq
      exact List.forall_mem_cons.2 ⟨statement_distinct hfirst, ih hothers⟩

namespace Draft

variable {d d' : Draft}

structure Distinct (d : Draft) : Prop where
  closed : d.closed.Distinct
  growing : d.growing.Distinct

theorem joinTables_distinct {h : Heading} {growing entries entries' : Entries}
    (hgrowing : growing.Distinct) (hentries : entries.Distinct)
    (hjoin : joinTables h growing entries = some entries') : entries'.Distinct := by
  unfold joinTables at hjoin
  have htable := hgrowing.table (some h.span) .header
  dsimp only at hjoin
  split at hjoin
  case h_1 hfree =>
    cases hjoin
    exact hentries.append hfree (.tables (List.forall_mem_singleton.2 htable))
  case h_2 hfound =>
    cases hjoin
    refine hentries.set (.tables fun v hv => ?_)
    rcases List.mem_append.1 hv with hv | hv
    · exact (hentries.found hfound).elements v hv
    · obtain rfl := List.mem_singleton.1 hv
      exact htable
  case h_3 => cases hjoin

theorem placeTable_distinct {h : Heading} {growing entries entries' : Entries}
    (hgrowing : growing.Distinct) (hentries : entries.Distinct)
    (hplace : placeTable h growing entries = some entries') : entries'.Distinct := by
  unfold placeTable at hplace
  split at hplace
  case h_1 hfree =>
    cases hplace
    exact hentries.append hfree (hgrowing.table _ _)
  case h_2 => cases hplace

theorem takeImplied_distinct {key : Key} {form : TableForm} {entries taken entries' : Entries}
    (h : entries.Distinct) (htake : takeImplied key form entries = some (taken, entries')) :
    taken.Distinct ∧ entries'.Distinct := by
  unfold takeImplied at htake
  split at htake
  case h_1 =>
    cases htake
    exact ⟨.nil, h⟩
  case h_2 hfound =>
    cases htake
    exact ⟨(h.found hfound).entries, h.erase⟩
  case h_3 => cases htake

theorem close_distinct {entries : Entries} (h : d.Distinct) (hclose : d.close = some entries) :
    entries.Distinct := by
  unfold close at hclose
  split at hclose
  · cases hclose
    exact h.growing
  · obtain ⟨⟨u, _⟩, hdescend, rfl⟩ := Option.map_eq_some_iff.1 hclose
    refine (descend_distinct (P := fun _ => True) ?_ h.closed hdescend).2
    intro form inner u inner' hinner hleaf
    obtain ⟨_, hput, heq⟩ := Option.map_eq_some_iff.1 hleaf
    cases heq
    split at hput
    · exact ⟨trivial, joinTables_distinct h.growing hinner hput⟩
    · exact ⟨trivial, placeTable_distinct h.growing hinner hput⟩

theorem step_distinct {s : Statement} (h : d.Distinct) (hs : s.Distinct)
    (hstep : d.step s = some d') : d'.Distinct := by
  cases s with
  | assignment a =>
    obtain ⟨growing, hassign, heq⟩ := Option.bind_eq_some_iff.1 hstep
    cases heq
    exact ⟨h.closed, assign_distinct h.growing hs hassign⟩
  | header path key span =>
    obtain ⟨entries, hclose, hstep⟩ := Option.bind_eq_some_iff.1 hstep
    obtain ⟨⟨growing, closed⟩, htake, heq⟩ := Option.bind_eq_some_iff.1 hstep
    cases heq
    obtain ⟨hgrowing, hclosed⟩ :=
      descend_distinct takeImplied_distinct (close_distinct h hclose) htake
    exact ⟨hclosed, hgrowing⟩
  | repeatedHeader path key span =>
    obtain ⟨entries, hclose, heq⟩ := Option.bind_eq_some_iff.1 hstep
    cases heq
    exact ⟨close_distinct h hclose, .nil⟩

theorem steps_distinct {ss : List Statement} (h : d.Distinct) (hss : ∀ s ∈ ss, s.Distinct)
    (hsteps : d.steps ss = some d') : d'.Distinct := by
  induction ss generalizing d with
  | nil =>
    cases hsteps
    exact h
  | cons s ss ih =>
    obtain ⟨next, hnext, hrest⟩ := Option.bind_eq_some_iff.1 hsteps
    have hnext' := step_distinct h (hss s List.mem_cons_self) hnext
    exact ih hnext' (fun t ht => hss t (List.mem_cons_of_mem s ht)) hrest

end Draft

theorem read_distinct {text : String} {document : Entries} (h : read? text = some document) :
    document.Distinct := by
  obtain ⟨ss, hss, h⟩ := Option.bind_eq_some_iff.1 h
  obtain ⟨d, hsteps, hclose⟩ := Option.bind_eq_some_iff.1 h
  exact Draft.close_distinct (Draft.steps_distinct ⟨.nil, .nil⟩ (statements_distinct hss) hsteps)
    hclose

end LeibnizSieve.Toml
