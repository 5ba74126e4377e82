import LeibnizSieve.Proofs.Config.Decoding
import LeibnizSieve.Proofs.Toml.Lines

/-! Settings that are written down are read back as they were, however they are written: each
section under a header, in braces or by dotted keys, and what has its default written or not. -/

namespace LeibnizSieve.Config

open Text Toml Files

section Grammar

variable {α : Type}

inductive BooleanText : Bool → List Char → Prop
  | false : BooleanText false "false".toList
  | true : BooleanText true "true".toList

inductive PolicyText : Sieve.Policy → List Char → Prop
  | mk {name : String} {p : Sieve.Policy} {text : List Char} (hname : PolicyName name p)
    (htext : BasicString name text) : PolicyText p text

inductive Place where
  | front
  | header

/-- The lines of one section. A field that has its default may be left out, and in front of all
headers so may the section. -/
inductive SectionLines (t : Topic α) (W : α → List Char → Prop) :
    Place → α → List (List Char) → Prop
  | omitted : SectionLines t W .front t.default []
  | emptyInline {k blanks v : List Char} (hk : Padded (KeyText t.name) k) (hblanks : Blank blanks)
    (hv : Padded (· = '\x7b' :: blanks ++ ['\x7d']) v) :
    SectionLines t W .front t.default [k ++ '=' :: v]
  | inline {a : α} {k f v w : List Char} (hk : Padded (KeyText t.name) k)
    (hf : Padded (KeyText t.field) f) (hv : Padded (W a) v)
    (hw : Padded (· = '\x7b' :: (f ++ '=' :: v) ++ ['\x7d']) w) :
    SectionLines t W .front a [k ++ '=' :: w]
  | dotted {a : α} {k f v : List Char} (hk : Padded (KeyText t.name) k)
    (hf : Padded (KeyText t.field) f) (hv : Padded (W a) v) :
    SectionLines t W .front a [k ++ '.' :: f ++ '=' :: v]
  | emptyHeader {k line : List Char} (hk : Padded (KeyText t.name) k)
    (hline : Padded (· = '[' :: k ++ [']']) line) : SectionLines t W .header t.default [line]
  | header {a : α} {k line f v : List Char} (hk : Padded (KeyText t.name) k)
    (hline : Padded (· = '[' :: k ++ [']']) line) (hf : Padded (KeyText t.field) f)
    (hv : Padded (W a) v) : SectionLines t W .header a [line, f ++ '=' :: v]

/-- A text that writes settings down, with both sections in either order. -/
inductive Writes (own : Topic α) (W : α → List Char → Prop) (settings : Settings α) :
    List Char → Prop
  | ownFirst {p q : Place} {ls ms : List (List Char)} {text : List Char}
    (hown : SectionLines own W p settings.choice ls)
    (hlevel : SectionLines level BasicString q settings.level ms) (hpq : p = .front ∨ q = .header)
    (h : Lines (ls ++ ms) text) : Writes own W settings text
  | levelFirst {p q : Place} {ls ms : List (List Char)} {text : List Char}
    (hlevel : SectionLines level BasicString p settings.level ls)
    (hown : SectionLines own W q settings.choice ms) (hpq : p = .front ∨ q = .header)
    (h : Lines (ls ++ ms) text) : Writes own W settings text

end Grammar

section Drafts

variable {α : Type} {t : Topic α}

inductive NewSection (t : Topic α) : α → Entries → Prop
  | none : NewSection t t.default []
  | some {key : Key} {v : Value} {a : α} (hname : key.name = t.name) (hstated : t.Says v a) :
    NewSection t a [(key, v)]

theorem NewSection.names {a : α} {es : Entries} (h : NewSection t a es) :
    ∀ e ∈ es, e.1.name = t.name := by
  cases h with
  | none => exact fun _ he => absurd he List.not_mem_nil
  | some hname _ => exact List.forall_mem_singleton.2 hname

theorem NewSection.chosen {a : α} {es : Entries} (h : NewSection t a es) :
    Chosen es t.name t.Says t.default a := by
  cases h with
  | none => exact chosen_nil.2 rfl
  | some hname hstated =>
    rw [chosen_cons, if_pos hname]
    exact hstated

/-- Statements that add a section to any document without it. Those in front of all headers have to
be there. -/
def Adds (t : Topic α) (p : Place) (a : α) (ss : List Statement) : Prop :=
  ∀ {d : Draft} {entries : Entries}, d.close = some entries →
    (∀ e ∈ entries, e.1.name ≠ t.name) → (p = .front → d.heading = none) →
    ∃ d' new, d.steps ss = some d' ∧ d'.close = some (entries ++ new) ∧ NewSection t a new ∧
      (p = .front → d'.heading = none)

theorem close_front {d : Draft} (h : d.heading = none) : d.close = some d.growing := by
  rw [Draft.close, h]

theorem assign_dotted {entries : Entries} {key field : Key} {v : Value}
    (h : entries.find? key.name = none) :
    entries.assign ⟨[key], field, v⟩ =
      some (entries ++ [(key, .table none .dotted [(field, v)])]) := by
  simp [Entries.assign, descend, h]

theorem adds_nil : Adds t .front t.default [] := by
  intro d entries hclose _ hfront
  exact ⟨d, [], rfl, by rw [hclose, List.append_nil], .none, hfront⟩

theorem step_front {d : Draft} (hfront : d.heading = none) {a : Assignment} {growing : Entries}
    (h : d.growing.assign a = some growing) :
    ∃ d', d.steps [.assignment a] = some d' ∧ d'.close = some growing ∧ d'.heading = none := by
  refine ⟨⟨d.closed, none, growing⟩, ?_, rfl, rfl⟩
  simp [Draft.steps, Draft.step, h, hfront]

theorem adds_assignment {a : α} {s : Statement}
    (h : Assigned [] t.name (fun v => t.Says v a) s) : Adds t .front a [s] := by
  intro d entries hclose hfree hfront
  have hfront := hfront rfl
  rw [close_front hfront] at hclose
  cases hclose
  cases h with
  | @mk b h =>
    obtain ⟨path, key, v⟩ := b
    obtain rfl := List.map_eq_nil_iff.1 h.path
    have hnone : d.growing.find? key.name = none := by
      rw [Entries.find_eq_none, h.key]
      exact hfree
    obtain ⟨d', hstep, hclose, hheading⟩ := step_front hfront (assign_fresh _ key v hnone)
    exact ⟨d', _, hstep, hclose, .some h.key h.value, fun _ => hheading⟩

theorem adds_dotted {a : α} {s : Statement}
    (h : Assigned [t.name] t.field (fun v => t.Means v a) s) : Adds t .front a [s] := by
  intro d entries hclose hfree hfront
  have hfront := hfront rfl
  rw [close_front hfront] at hclose
  cases hclose
  cases h with
  | @mk b h =>
    obtain ⟨path, key, v⟩ := b
    obtain ⟨first, rest, rfl, hname, hnil⟩ := List.map_eq_cons_iff.1 h.path
    obtain rfl := List.map_eq_nil_iff.1 hnil
    have hnone : d.growing.find? first.name = none := by
      rw [Entries.find_eq_none, hname]
      exact hfree
    obtain ⟨d', hstep, hclose, hheading⟩ := step_front hfront (assign_dotted (v := v) hnone)
    exact ⟨d', _, hstep, hclose, .some hname (.table _ _ h.key h.value), fun _ => hheading⟩

theorem close_header {entries growing : Entries} {key : Key} {span : Span}
    (h : entries.find? key.name = none) :
    Draft.close ⟨entries, some ⟨[], key, false, span⟩, growing⟩ =
      some (entries ++ [(key, .table (some span) .header growing)]) := by
  simp [Draft.close, descend, Draft.placeTable, h]

theorem step_header {d : Draft} {entries : Entries} (hclose : d.close = some entries) {key : Key}
    (h : entries.find? key.name = none) (span : Span) :
    d.step (.header [] key span) = some ⟨entries, some ⟨[], key, false, span⟩, []⟩ := by
  simp [Draft.step, hclose, descend, Draft.takeImplied, h]

theorem adds_header {s : Statement} (h : Opened t.name s) : Adds t .header t.default [s] := by
  intro d entries hclose hfree _
  cases h with
  | @mk key span hname =>
    have hnone : entries.find? key.name = none := by
      rw [Entries.find_eq_none, hname]
      exact hfree
    have hsteps : d.steps [.header [] key span] =
        some ⟨entries, some ⟨[], key, false, span⟩, []⟩ := by
      rw [Draft.steps, step_header hclose hnone]
      rfl
    exact ⟨_, _, hsteps, close_header hnone, .some hname (.emptyTable _ _), nofun⟩

theorem step_field (entries : Entries) (key field : Key) (span : Span) (v : Value) :
    ∃ span', Draft.step ⟨entries, some ⟨[], key, false, span⟩, []⟩ (.assignment ⟨[], field, v⟩) =
      some ⟨entries, some ⟨[], key, false, span'⟩, [(field, v)]⟩ := by
  refine ⟨(v.span?.map span.to).getD span, ?_⟩
  simp [Draft.step, assign_fresh _ _ _ (Entries.find_nil _)]

theorem adds_headerField {a : α} {s s' : Statement} (h : Opened t.name s)
    (h' : Assigned [] t.field (fun v => t.Means v a) s') : Adds t .header a [s, s'] := by
  intro d entries hclose hfree _
  cases h with
  | @mk key span hname =>
    have hnone : entries.find? key.name = none := by
      rw [Entries.find_eq_none, hname]
      exact hfree
    cases h' with
    | @mk b h' =>
      obtain ⟨path, field, v⟩ := b
      obtain rfl := List.map_eq_nil_iff.1 h'.path
      obtain ⟨span', hfield⟩ := step_field entries key field span v
      have hsteps : d.steps [.header [] key span, .assignment ⟨[], field, v⟩] =
          some ⟨entries, some ⟨[], key, false, span'⟩, [(field, v)]⟩ := by
        rw [Draft.steps, step_header hclose hnone, Option.bind_some, Draft.steps, hfield]
        rfl
      exact ⟨_, _, hsteps, close_header hnone, .some hname (.table _ _ h'.key h'.value), nofun⟩

end Drafts

section Reading

variable {α : Type} {own t : Topic α} {W : α → List Char → Prop}

def Readable (t : Topic α) (W : α → List Char → Prop) : Prop :=
  ∀ {a text}, W a text → ValueReads 1 (fun v => t.Means v a) text

theorem booleanText_readable : Readable prompt BooleanText := by
  intro b text h
  have hvalue := boolean_valueReads b
  cases h <;> exact hvalue.mono fun ⟨span, hv⟩ => hv ▸ .mk span _

theorem levelText_readable : Readable level BasicString := by
  intro s text h
  exact h.valueReads.mono fun ⟨span, hv⟩ => hv ▸ .mk span s

theorem policyText_readable : Readable policy PolicyText := by
  intro p text h
  cases h with
  | mk hname htext => exact htext.valueReads.mono fun ⟨span, hv⟩ => hv ▸ .string span hname

theorem SectionLines.reads (hW : Readable t W) {p : Place} {a : α} {lines : List (List Char)}
    (h : SectionLines t W p a lines) :
    ∃ Qs, List.Forall₂ LineReads Qs lines ∧
      ∀ ss, List.Forall₂ (fun Q s => Q s) Qs ss → Adds t p a ss := by
  cases h with
  | omitted =>
    refine ⟨[], .nil, fun ss hss => ?_⟩
    cases hss
    exact adds_nil
  | @emptyInline k blanks v hk hblanks hv =>
    have hvalue : Padded (ValueReads 1 fun v => t.Says v t.default) v := hv.mono fun htext =>
      htext ▸ (emptyTable_valueReads hblanks).mono fun ⟨span, form, hv⟩ =>
        hv ▸ .emptyTable span form
    refine ⟨_, .cons (single_lineReads hk hvalue (by norm_num)) .nil, fun ss hss => ?_⟩
    obtain ⟨s, _, hs, hrest, rfl⟩ := List.forall₂_cons_left_iff.1 hss
    cases hrest
    exact adds_assignment hs
  | @inline a k f v w hk hf hv hw =>
    have htable := inlineTable_valueReads hf (hv.mono hW)
    have hvalue : Padded (ValueReads 2 fun v => t.Says v a) w := hw.mono fun htext =>
      htext ▸ htable.mono fun ⟨span, form, key, w, hv, hname, hmeans⟩ =>
        hv ▸ .table span form hname hmeans
    refine ⟨_, .cons (single_lineReads hk hvalue (by norm_num)) .nil, fun ss hss => ?_⟩
    obtain ⟨s, _, hs, hrest, rfl⟩ := List.forall₂_cons_left_iff.1 hss
    cases hrest
    exact adds_assignment hs
  | dotted hk hf hv =>
    refine ⟨_, .cons (dotted_lineReads hk hf (hv.mono hW) (by norm_num)) .nil, fun ss hss => ?_⟩
    obtain ⟨s, _, hs, hrest, rfl⟩ := List.forall₂_cons_left_iff.1 hss
    cases hrest
    exact adds_dotted hs
  | emptyHeader hk hline =>
    refine ⟨_, .cons (header_lineReads hk hline) .nil, fun ss hss => ?_⟩
    obtain ⟨s, _, hs, hrest, rfl⟩ := List.forall₂_cons_left_iff.1 hss
    cases hrest
    exact adds_header hs
  | header hk hline hf hv =>
    have hfield := single_lineReads hf (hv.mono hW) (by norm_num)
    refine ⟨_, .cons (header_lineReads hk hline) (.cons hfield .nil), fun ss hss => ?_⟩
    obtain ⟨s, _, hs, hmore, rfl⟩ := List.forall₂_cons_left_iff.1 hss
    obtain ⟨s', _, hs', hrest, rfl⟩ := List.forall₂_cons_left_iff.1 hmore
    cases hrest
    exact adds_headerField hs hs'

theorem steps_append (d : Draft) (ss ss' : List Statement) :
    d.steps (ss ++ ss') = (d.steps ss).bind (·.steps ss') := by
  induction ss generalizing d with
  | nil => rfl
  | cons s ss ih =>
    rw [List.cons_append, Draft.steps, Draft.steps, Option.bind_assoc]
    congr 1
    funext next
    exact ih next

theorem ofStatements_adds {α β : Type} {t : Topic α} {u : Topic β} (hne : t.name ≠ u.name)
    {p q : Place} (hpq : p = .front ∨ q = .header) {a : α} {b : β} {ss ss' : List Statement}
    (h : Adds t p a ss) (h' : Adds u q b ss') :
    ∃ es fs, ofStatements? (ss ++ ss') = some (es ++ fs) ∧ NewSection t a es ∧
      NewSection u b fs := by
  have hempty : Draft.empty.close = some [] := rfl
  obtain ⟨d, es, hsteps, hclose, hnew, hfront⟩ := h hempty
    (fun _ he => absurd he List.not_mem_nil) (fun _ => rfl)
  rw [List.nil_append] at hclose
  have hfree : ∀ e ∈ es, e.1.name ≠ u.name := fun e he => hnew.names e he ▸ hne
  obtain ⟨d', fs, hsteps', hclose', hnew', -⟩ := h' hclose hfree fun hq => by
    rcases hpq with hp | hheader
    · exact hfront hp
    · rw [hheader] at hq
      cases hq
  refine ⟨es, fs, ?_, hnew, hnew'⟩
  rw [ofStatements?, steps_append, hsteps, Option.bind_some, hsteps', Option.bind_some, hclose']

theorem chosen_append_free {β : Type} {es fs : Entries} {name : String} {P : Value → β → Prop}
    {default b : β} (hfs : ∀ e ∈ fs, e.1.name ≠ name) :
    Chosen (es ++ fs) name P default b ↔ Chosen es name P default b := by
  induction es with
  | nil => rw [List.nil_append, chosen_of_free hfs, chosen_nil]
  | cons e es ih =>
    rw [List.cons_append, chosen_cons, chosen_cons, ih]

theorem chosen_free_append {β : Type} {es fs : Entries} {name : String} {P : Value → β → Prop}
    {default b : β} (hes : ∀ e ∈ es, e.1.name ≠ name) :
    Chosen (es ++ fs) name P default b ↔ Chosen fs name P default b := by
  induction es with
  | nil => rfl
  | cons e es ih =>
    obtain ⟨he, hes⟩ := List.forall_mem_cons.1 hes
    rw [List.cons_append, chosen_cons, if_neg he, ih hes]

theorem states_of_new (hne : own.name ≠ level.name) {settings : Settings α} {es fs : Entries}
    (hown : NewSection own settings.choice es) (hlevel : NewSection level settings.level fs) :
    States own (es ++ fs) settings ∧ States own (fs ++ es) settings := by
  have hes : ∀ e ∈ es, e.1.name ≠ level.name := fun e he => hown.names e he ▸ hne
  have hfs : ∀ e ∈ fs, e.1.name ≠ own.name := fun e he => hlevel.names e he ▸ hne.symm
  constructor
  · refine ⟨fun e he => ?_, (chosen_append_free hfs).2 hown.chosen,
      (chosen_free_append hes).2 hlevel.chosen⟩
    exact (List.mem_append.1 he).imp (hown.names e) (hlevel.names e)
  · refine ⟨fun e he => ?_, (chosen_free_append hfs).2 hown.chosen,
      (chosen_append_free hes).2 hlevel.chosen⟩
    exact (List.mem_append.1 he).symm.imp (hown.names e) (hlevel.names e)

theorem Lines.reads_sections {β γ : Type} {t : Topic β} {u : Topic γ} {V : β → List Char → Prop}
    {U : γ → List Char → Prop} (hne : t.name ≠ u.name) (hV : Readable t V) (hU : Readable u U)
    {p q : Place} (hpq : p = .front ∨ q = .header) {b : β} {c : γ} {ls ms : List (List Char)}
    {text : String} (ht : SectionLines t V p b ls) (hu : SectionLines u U q c ms)
    (h : Lines (ls ++ ms) text.toList) :
    ∃ es fs, read? text = some (es ++ fs) ∧ NewSection t b es ∧ NewSection u c fs := by
  obtain ⟨Qs, hQs, hadds⟩ := ht.reads hV
  obtain ⟨Rs, hRs, hadds'⟩ := hu.reads hU
  obtain ⟨ss, hss, hmeans⟩ := h.statementsOf (List.rel_append hQs hRs)
  have hmeans' := hmeans.flip
  have hQs' := (List.forall₂_take_append _ _ _ hmeans').flip
  have hRs' := (List.forall₂_drop_append _ _ _ hmeans').flip
  obtain ⟨es, fs, hof, hes, hfs⟩ := ofStatements_adds hne hpq (hadds _ hQs') (hadds' _ hRs')
  rw [List.take_append_drop] at hof
  exact ⟨es, fs, by rw [read?, hss, Option.bind_some, hof], hes, hfs⟩

theorem Writes.reads (hne : own.name ≠ level.name) (hW : Readable own W) {settings : Settings α}
    {text : String} (h : Writes own W settings text.toList) :
    ∃ document, read? text = some document ∧ States own document settings := by
  cases h with
  | ownFirst hown hlevel hpq h =>
    obtain ⟨es, fs, hread, hes, hfs⟩ :=
      Lines.reads_sections hne hW levelText_readable hpq hown hlevel h
    exact ⟨_, hread, (states_of_new hne hes hfs).1⟩
  | levelFirst hlevel hown hpq h =>
    obtain ⟨fs, es, hread, hfs, hes⟩ :=
      Lines.reads_sections hne.symm levelText_readable hW hpq hlevel hown h
    exact ⟨_, hread, (states_of_new hne hes hfs).2⟩

end Reading

section Existence

variable {α : Type} {own t : Topic α} {W : α → List Char → Prop}

def BareNames (t : Topic α) : Prop :=
  KeyText t.name t.name.toList ∧ KeyText t.field t.field.toList

theorem prompt_bareNames : BareNames prompt :=
  ⟨.of_all (by decide) (by decide), .of_all (by decide) (by decide)⟩

theorem policy_bareNames : BareNames policy :=
  ⟨.of_all (by decide) (by decide), .of_all (by decide) (by decide)⟩

theorem level_bareNames : BareNames level :=
  ⟨.of_all (by decide) (by decide), .of_all (by decide) (by decide)⟩

theorem exists_sectionLines (ht : BareNames t) (hW : ∀ a, ∃ text, W a text) (a : α) :
    ∃ line, SectionLines t W .front a [line] := by
  obtain ⟨v, hv⟩ := hW a
  exact ⟨_, .dotted (.unpadded ht.1) (.unpadded ht.2) (.unpadded hv)⟩

/-- All settings can be written down, on two lines. -/
theorem exists_writes (hown : BareNames own) (hW : ∀ a, ∃ text, W a text)
    (settings : Settings α) : ∃ text : String, Writes own W settings text.toList := by
  obtain ⟨line, hline⟩ := exists_sectionLines hown hW settings.choice
  obtain ⟨line', hline'⟩ := exists_sectionLines level_bareNames exists_basicString settings.level
  have hlines : Lines [line, line'] (line ++ [] ++ ['\n'] ++ (line' ++ [])) :=
    .line .none .lf (.lastLine .none)
  refine ⟨String.ofList (line ++ [] ++ ['\n'] ++ (line' ++ [])), ?_⟩
  rw [String.toList_ofList]
  exact .ownFirst hline hline' (.inl rfl) hlines

theorem exists_booleanText (b : Bool) : ∃ text, BooleanText b text := by
  cases b
  · exact ⟨_, .false⟩
  · exact ⟨_, .true⟩

theorem exists_policyText (p : Sieve.Policy) : ∃ text, PolicyText p text := by
  obtain ⟨name, hname⟩ : ∃ name, PolicyName name p := by
    cases p
    · exact ⟨_, .silent⟩
    · exact ⟨_, .report⟩
  obtain ⟨text, htext⟩ := exists_basicString name
  exact ⟨text, .mk hname htext⟩

end Existence

/-- How settings survive being written down: every one of them can be, and from every text that
writes them down, in a file or not, they are read back. Nothing written is the default. -/
structure RoundTrips {α : Type} (s : Schema α) (own : Topic α) (W : α → List Char → Prop)
    (default : Settings α) : Prop where
  writable : ∀ settings, ∃ text : String, Writes own W settings text.toList
  ofText : ∀ settings (text : String), Writes own W settings text.toList →
    s.ofText text = .ok settings
  load : ∀ settings (text : String) (volume : Volume) path, Writes own W settings text.toList →
    volume.read path = .ok (utf8 text) → s.load volume (some path) = .ok settings
  empty : s.ofText "" = .ok default
  absent : ∀ volume, s.load volume none = .ok default

theorem roundTrips {α : Type} {s : Schema α} {own : Topic α} {W : α → List Char → Prop}
    (hfits : Fits s.own own) (hne : own.name ≠ level.name) (hW : Readable own W)
    (hwritable : ∀ settings, ∃ text : String, Writes own W settings text.toList)
    (hdefault : s.ofText s.defaultText = .ok ⟨own.default, level.default⟩) :
    RoundTrips s own W ⟨own.default, level.default⟩ := by
  have hofText : ∀ settings (text : String), Writes own W settings text.toList →
      s.ofText text = .ok settings := by
    intro settings text h
    obtain ⟨document, hread, hstates⟩ := h.reads hne hW
    exact (ofText_eq_ok hfits hne hread).2 hstates
  refine ⟨hwritable, hofText, fun settings text volume path h hread => ?_, ?_, fun _ => hdefault⟩
  · rw [Schema.load, Files.Volume.readText_eq_ok.2 hread]
    exact hofText settings text h
  · have hlines : Lines [] ([] ++ []) := .last nofun .none
    exact hofText _ "" (.ownFirst .omitted .omitted (.inl rfl) hlines)

theorem ofText_default_prompt :
    Leibniz.schema.ofText Leibniz.schema.defaultText = .ok ⟨prompt.default, level.default⟩ := by
  have htext : Leibniz.schema.defaultText =
      String.ofList _ ++ String.ofList _ ++ String.ofList _ ++ String.ofList _ ++ String.ofList _ ++
        String.ofList _ ++ String.ofList _ ++ String.ofList _ ++ String.ofList _ ++
        String.ofList _ ++ String.ofList _ ++ String.ofList _ ++ String.ofList _ := rfl
  rw [htext, Schema.ofText, read?]
  simp only [← String.ofList_append, String.toList_ofList]
  decide +kernel

theorem ofText_default_policy :
    Sieve.schema.ofText Sieve.schema.defaultText = .ok ⟨policy.default, level.default⟩ := by
  have htext : Sieve.schema.defaultText =
      String.ofList _ ++ String.ofList _ ++ String.ofList _ ++ String.ofList _ ++ String.ofList _ ++
        String.ofList _ ++ String.ofList _ ++ String.ofList _ ++ String.ofList _ ++
        String.ofList _ ++ String.ofList _ ++ String.ofList _ ++ String.ofList _ ++
        String.ofList _ := rfl
  rw [htext, Schema.ofText, read?]
  simp only [← String.ofList_append, String.toList_ofList]
  decide +kernel

theorem settings_roundTrip :
    RoundTrips Leibniz.schema prompt BooleanText ⟨false, "error"⟩ ∧
      RoundTrips Sieve.schema policy PolicyText ⟨.silent, "error"⟩ := by
  constructor
  · exact roundTrips prompt_fits (by decide) booleanText_readable
      (exists_writes prompt_bareNames exists_booleanText) ofText_default_prompt
  · exact roundTrips policy_fits (by decide) policyText_readable
      (exists_writes policy_bareNames exists_policyText) ofText_default_policy

/-- Headers, a comment, both line ends, and two ways to escape. -/
theorem settings_roundTrip_escaped :
    Leibniz.schema.ofText "[log] # first\nlevel = \"\\\"\\u0007\"\r\n[output]\nlegacy_prompt=true" =
      .ok ⟨true, "\"\x07"⟩ := by
  have hquote : CharText '"' ['\\', '"'] := .short .quote
  have hbell : CharText '\x07' ['\\', 'u', '0', '0', '0', '7'] :=
    .four (.cons (.decimal 0) (.cons (.decimal 0) (.cons (.decimal 0) (.cons (.decimal 7) .nil))))
      rfl rfl
  have hstring : BasicString "\"\x07" _ := .mk (.cons hquote (.cons hbell .nil))
  have hnil : Blank [] := nofun
  have hblank : Blank [' '] := by simp [Blank]
  have hlevel : SectionLines level BasicString .header "\"\x07" _ :=
    .header (.unpadded level_bareNames.1) (.mk hnil rfl hblank)
      (.mk hnil level_bareNames.2 hblank) (.mk hblank hstring hnil)
  have hprompt : SectionLines prompt BooleanText .header true _ :=
    .header (.unpadded prompt_bareNames.1) (.unpadded rfl) (.unpadded prompt_bareNames.2)
      (.unpadded .true)
  have hcomment : Comment ('#' :: " first".toList) := .some (by simp [Visible])
  have hwrites : Writes prompt BooleanText ⟨true, "\"\x07"⟩ _ :=
    .levelFirst hlevel hprompt (.inr rfl)
      (.line hcomment .lf (.line .none .crlf (.line .none .lf (.lastLine .none))))
  refine settings_roundTrip.1.ofText _ _ ?_
  exact (congrArg (Writes prompt BooleanText _) String.toList_ofList).mpr hwrites

end LeibnizSieve.Config
