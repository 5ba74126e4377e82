import LeibnizSieve.Leibniz.Run
import LeibnizSieve.Proofs.Attempt
import LeibnizSieve.Proofs.Config.Topics

/-! A program takes from a document the settings that it states, and refuses it when it states
none. One lemma for each decoder says which values it accepts and as what. -/

namespace LeibnizSieve.Config

open Toml

section Decoders

variable {α : Type} {v : Value}

theorem atSpan_eq_ok {span : Option Span} {x : Decoded α} {a : α} :
    atSpan span x = .ok a ↔ x = .ok a := by
  cases x <;> simp [atSpan]

theorem boolean_eq_ok {b : Bool} : boolean v = .ok b ↔ IsBoolean v b := by
  constructor
  · intro h
    cases v <;> cases h
    exact .mk _ _
  · intro h
    cases h
    rfl

theorem string_eq_ok {s : String} : string v = .ok s ↔ IsString v s := by
  constructor
  · intro h
    cases v <;> cases h
    exact .mk _ _
  · intro h
    cases h
    rfl

theorem named_eq_ok {name : String} {span : Option Span} {p : Sieve.Policy} :
    Sieve.Policy.variants.named name span = .ok p ↔ PolicyName name p := by
  constructor
  · intro h
    by_cases hsilent : "silent" = name
    · subst hsilent
      cases h
      exact .silent
    · by_cases hreport : "report" = name
      · subst hreport
        cases h
        exact .report
      · simp [Variants.named, Sieve.Policy.variants, Sieve.Policy.name, hsilent, hreport] at h
  · intro h
    cases h <;> rfl

theorem emptyPayload_eq_ok {u : Unit} : emptyPayload v = .ok u ↔ Vacant v := by
  constructor
  · intro h
    unfold emptyPayload at h
    split at h
    · exact .array (.tables _ _)
    · exact .array (.array _ _)
    · exact .table _ _
    all_goals cases h
  · intro h
    cases h with
    | table => rfl
    | array hlist => cases hlist <;> rfl

theorem variant_eq_ok {p : Sieve.Policy} :
    variant Sieve.Policy.variants v = .ok p ↔ IsPolicy v p := by
  constructor
  · intro h
    unfold variant at h
    split at h
    · exact .string _ (named_eq_ok.1 h)
    · split at h
      · cases h
      · obtain ⟨p', hname, h⟩ := bind_eq_ok.1 h
        obtain ⟨u, hvacant, heq⟩ := bind_eq_ok.1 h
        cases heq
        exact .table _ _ (named_eq_ok.1 hname) (emptyPayload_eq_ok.1 hvacant)
      · cases h
    · cases h
  · intro h
    cases h with
    | string span hname => exact named_eq_ok.2 hname
    | table span form hname hvacant =>
      exact bind_eq_ok.2 ⟨p, named_eq_ok.2 hname,
        bind_eq_ok.2 ⟨(), emptyPayload_eq_ok.2 hvacant, rfl⟩⟩

end Decoders

structure Fits {α : Type} (s : Section α) (t : Topic α) : Prop where
  name : s.name = t.name
  field : s.field.name = t.field
  default : s.field.default = t.default
  decode : ∀ {v a}, s.field.decode v = .ok a ↔ t.Means v a

theorem prompt_fits : Fits Leibniz.schema.own prompt := ⟨rfl, rfl, rfl, boolean_eq_ok⟩

theorem policy_fits : Fits Sieve.schema.own policy := ⟨rfl, rfl, rfl, variant_eq_ok⟩

theorem level_fits : Fits logSection level := ⟨rfl, rfl, rfl, string_eq_ok⟩

namespace Fits

variable {α : Type} {s : Section α} {t : Topic α}

theorem entries_eq_ok (h : Fits s t) {span : Option Span} {form : TableForm} {entries : Entries}
    {a : α} (hdistinct : entries.Distinct) :
    s.decodeEntries s.field.default entries = .ok a ↔ t.Says (.table span form entries) a := by
  match entries with
  | [] =>
    rw [Section.decodeEntries, h.default]
    constructor
    · intro heq
      cases heq
      exact .emptyTable _ _
    · intro hstated
      cases hstated with
      | emptyTable => rfl
      | emptyArray hlist => cases hlist
      | array hlist _ => cases hlist
  | [(key, v)] =>
    rw [Section.decodeEntries]
    constructor
    · intro heq
      split at heq
      case isTrue hname =>
        obtain ⟨a', hv, heq⟩ := bind_eq_ok.1 heq
        cases heq
        exact .table _ _ (hname.trans h.field) (h.decode.1 (atSpan_eq_ok.1 hv))
      case isFalse => cases heq
    · intro hstated
      cases hstated with
      | table span form hname hv =>
        rw [if_pos (hname.trans h.field.symm)]
        exact bind_eq_ok.2 ⟨a, atSpan_eq_ok.2 (h.decode.2 hv), rfl⟩
      | emptyArray hlist => cases hlist
      | array hlist _ => cases hlist
  | (key, v) :: (key', v') :: rest =>
    have hne : key.name ≠ key'.name := by
      have hnames := hdistinct.names
      simp only [List.map_cons, List.nodup_cons, List.mem_cons, not_or] at hnames
      exact hnames.1.1
    constructor
    · intro heq
      rw [Section.decodeEntries] at heq
      split at heq
      case isTrue hname =>
        obtain ⟨a', -, heq⟩ := bind_eq_ok.1 heq
        rw [Section.decodeEntries, if_neg fun hname' => hne (hname.trans hname'.symm)] at heq
        cases heq
      case isFalse => cases heq
    · intro hstated
      cases hstated with
      | emptyArray hlist => cases hlist
      | array hlist _ => cases hlist

theorem array_eq_ok (h : Fits s t) {v : Value} {vs : List Value} {a : α} (hlist : Listed v vs) :
    s.decode v = .ok a ↔ t.Says v a := by
  cases vs with
  | nil =>
    have heq : s.decode v = .ok t.default := by
      rw [← h.default]
      cases hlist <;> rfl
    rw [heq]
    constructor
    · intro heq
      cases heq
      exact .emptyArray hlist
    · intro hstated
      cases hlist <;> cases hstated with
      | emptyArray => rfl
      | array hlist _ => cases hlist
  | cons first rest =>
    have heq : s.decode v = atSpan first.span? (s.field.decode first) := by
      cases hlist <;> rfl
    rw [heq, atSpan_eq_ok, h.decode]
    constructor
    · exact fun hfirst => .array hlist hfirst
    · intro hstated
      cases hlist <;> cases hstated with
      | emptyArray hlist => cases hlist
      | array hlist hfirst =>
        cases hlist
        exact hfirst

theorem decode_eq_ok (h : Fits s t) {v : Value} {a : α} (hdistinct : v.Distinct) :
    s.decode v = .ok a ↔ t.Says v a := by
  cases v with
  | table span form entries => exact h.entries_eq_ok hdistinct.entries
  | array span vs => exact h.array_eq_ok (.array span vs)
  | tables span vs => exact h.array_eq_ok (.tables span vs)
  | _ =>
    constructor
    · intro heq
      cases heq
    · intro hstated
      cases hstated with
      | emptyArray hlist => cases hlist
      | array hlist _ => cases hlist

end Fits

section Documents

variable {α : Type} {s : Schema α} {own : Topic α}

theorem chosen_nil {β : Type} {name : String} {P : Value → β → Prop} {default b : β} :
    Chosen [] name P default b ↔ b = default := Iff.rfl

theorem chosen_cons {β : Type} {key : Key} {v : Value} {rest : Entries} {name : String}
    {P : Value → β → Prop} {default b : β} :
    Chosen ((key, v) :: rest) name P default b ↔
      if key.name = name then P v b else Chosen rest name P default b := by
  unfold Chosen
  rw [Entries.find_cons]
  by_cases h : key.name = name
  · rw [if_pos h, if_pos h]
  · rw [if_neg h, if_neg h]

theorem chosen_of_free {β : Type} {entries : Entries} {name : String} {P : Value → β → Prop}
    {default b : β} (h : ∀ e ∈ entries, e.1.name ≠ name) :
    Chosen entries name P default b ↔ b = default := by
  rw [Chosen, Entries.find_eq_none.2 h]

theorem exists_chosen {β : Type} {key : Key} {v : Value} {rest : Entries} {name : String}
    {P : Value → β → Prop} {start b : β} (hfree : ∀ e ∈ rest, e.1.name ≠ key.name) :
    (∃ next, (if key.name = name then P v next else next = start) ∧ Chosen rest name P next b) ↔
      Chosen ((key, v) :: rest) name P start b := by
  rw [chosen_cons]
  split
  case isTrue hname =>
    rw [hname] at hfree
    constructor
    · rintro ⟨next, hP, hchosen⟩
      obtain rfl := (chosen_of_free hfree).1 hchosen
      exact hP
    · intro hP
      exact ⟨b, hP, (chosen_of_free hfree).2 rfl⟩
  case isFalse =>
    constructor
    · rintro ⟨next, rfl, hchosen⟩
      exact hchosen
    · intro hchosen
      exact ⟨start, rfl, hchosen⟩

theorem decodeEntry_eq_ok (hown : Fits s.own own) (hne : own.name ≠ level.name)
    {settings settings' : Settings α} {key : Key} {v : Value} (hv : v.Distinct) :
    s.decodeEntry settings key v = .ok settings' ↔
      (key.name = own.name ∨ key.name = level.name) ∧
        (if key.name = own.name then own.Says v settings'.choice
          else settings'.choice = settings.choice) ∧
        (if key.name = level.name then level.Says v settings'.level
          else settings'.level = settings.level) := by
  rw [Schema.decodeEntry, hown.name, level_fits.name]
  by_cases hname : key.name = own.name
  · have hname' : key.name ≠ level.name := hname ▸ hne
    rw [if_pos hname, if_pos hname, if_neg hname']
    constructor
    · intro h
      obtain ⟨a, ha, heq⟩ := bind_eq_ok.1 h
      cases heq
      exact ⟨.inl hname, (hown.decode_eq_ok hv).1 (atSpan_eq_ok.1 ha), rfl⟩
    · rintro ⟨-, hstated, hlevel⟩
      refine bind_eq_ok.2 ⟨_, atSpan_eq_ok.2 ((hown.decode_eq_ok hv).2 hstated), ?_⟩
      rw [← hlevel]
      rfl
  · rw [if_neg hname, if_neg hname]
    by_cases hname' : key.name = level.name
    · rw [if_pos hname', if_pos hname']
      constructor
      · intro h
        obtain ⟨l, hl, heq⟩ := bind_eq_ok.1 h
        cases heq
        exact ⟨.inr hname', rfl, (level_fits.decode_eq_ok hv).1 (atSpan_eq_ok.1 hl)⟩
      · rintro ⟨-, hchoice, hstated⟩
        refine bind_eq_ok.2 ⟨_, atSpan_eq_ok.2 ((level_fits.decode_eq_ok hv).2 hstated), ?_⟩
        rw [← hchoice]
        rfl
    · rw [if_neg hname']
      constructor
      · intro h
        cases h
      · rintro ⟨hno | hno, -⟩
        · exact absurd hno hname
        · exact absurd hno hname'

theorem decodeEntries_eq_ok (hown : Fits s.own own) (hne : own.name ≠ level.name)
    {document : Entries} {settings settings' : Settings α} (hdistinct : document.Distinct) :
    s.decodeEntries settings document = .ok settings' ↔
      (∀ e ∈ document, e.1.name = own.name ∨ e.1.name = level.name) ∧
        Chosen document own.name own.Says settings.choice settings'.choice ∧
        Chosen document level.name level.Says settings.level settings'.level := by
  -- keys are distinct, so what one entry settles no later one changes
  induction document generalizing settings with
  | nil =>
    rw [Schema.decodeEntries, chosen_nil, chosen_nil]
    constructor
    · intro h
      cases h
      exact ⟨fun _ he => absurd he List.not_mem_nil, rfl, rfl⟩
    · rintro ⟨-, hchoice, hlevel⟩
      cases settings
      cases settings'
      cases hchoice
      cases hlevel
      rfl
  | cons e rest ih =>
    obtain ⟨key, v⟩ := e
    obtain ⟨hfree, hrest⟩ := hdistinct.cons
    have hv := hdistinct.values _ List.mem_cons_self
    rw [Schema.decodeEntries, bind_eq_ok, ← exists_chosen hfree, ← exists_chosen hfree,
      List.forall_mem_cons]
    simp only [decodeEntry_eq_ok hown hne hv, ih hrest]
    constructor
    · rintro ⟨next, ⟨hkey, hchoice, hlevel⟩, hknown, hchoice', hlevel'⟩
      exact ⟨⟨hkey, hknown⟩, ⟨next.choice, hchoice, hchoice'⟩, ⟨next.level, hlevel, hlevel'⟩⟩
    · rintro ⟨⟨hkey, hknown⟩, ⟨a, hchoice, hchoice'⟩, ⟨l, hlevel, hlevel'⟩⟩
      exact ⟨⟨a, l⟩, ⟨hkey, hchoice, hlevel⟩, hknown, hchoice', hlevel'⟩

theorem decode_eq_ok (hown : Fits s.own own) (hne : own.name ≠ level.name) {document : Entries}
    {settings : Settings α} (hdistinct : document.Distinct) :
    s.decode document = .ok settings ↔ States own document settings := by
  rw [Schema.decode, decodeEntries_eq_ok hown hne hdistinct, Schema.defaults, hown.default,
    level_fits.default]
  constructor
  · rintro ⟨hknown, hchoice, hlevel⟩
    exact ⟨hknown, hchoice, hlevel⟩
  · rintro ⟨hknown, hchoice, hlevel⟩
    exact ⟨hknown, hchoice, hlevel⟩

end Documents

/-- How a text that holds a document is answered: with the settings that the document states, if it
states any, and otherwise with an error of decoding. How the document is written down does not
matter. -/
structure Answers {α : Type} (s : Schema α) (own : Topic α) (text : String) (document : Entries) :
    Prop where
  accepted : ∀ settings, s.ofText text = .ok settings ↔ States own document settings
  refused : (¬ ∃ settings, States own document settings) →
    ∃ e, s.ofText text = .error (.undecodable text e)
  alike : ∀ text' document', read? text' = some document' → AlikeEntries document document' →
    ∀ settings, s.ofText text = .ok settings ↔ s.ofText text' = .ok settings

theorem ofText_eq_ok {α : Type} {s : Schema α} {own : Topic α} (hown : Fits s.own own)
    (hne : own.name ≠ level.name) {text : String} {document : Entries}
    (hread : read? text = some document) {settings : Settings α} :
    s.ofText text = .ok settings ↔ States own document settings := by
  rw [← decode_eq_ok hown hne (read_distinct hread), Schema.ofText, hread]
  cases hdecode : s.decode document with
  | ok settings' => simp [hdecode]
  | error e => simp [hdecode]

theorem answers {α : Type} {s : Schema α} {own : Topic α} (hown : Fits s.own own)
    (hne : own.name ≠ level.name) (hinv : own.Invariant) {text : String} {document : Entries}
    (hread : read? text = some document) : Answers s own text document := by
  have hdistinct := read_distinct hread
  refine ⟨fun settings => ofText_eq_ok hown hne hread, fun hno => ?_, ?_⟩
  · rw [Schema.ofText, hread]
    cases hdecode : s.decode document with
    | ok settings => exact absurd ⟨settings, (decode_eq_ok hown hne hdistinct).1 hdecode⟩ hno
    | error e => exact ⟨e, by simp [hdecode]⟩
  · intro text' document' hread' halike settings
    rw [ofText_eq_ok hown hne hread, ofText_eq_ok hown hne hread']
    exact ⟨fun h => h.alike hinv (read_distinct hread') halike,
      fun h => h.alike hinv hdistinct halike.symm⟩

/-- Both programs take from a text the settings that its document states, and refuse it when there
are none. -/
theorem ofText_answers {text : String} {document : Entries} (hread : read? text = some document) :
    Answers Leibniz.schema prompt text document ∧ Answers Sieve.schema policy text document :=
  ⟨answers prompt_fits (by decide) prompt_invariant hread,
    answers policy_fits (by decide) policy_invariant hread⟩

theorem ofText_answers_prompt :
    ∃ document, read? "output.legacy_prompt = true" = some document ∧
      Leibniz.schema.ofText "output.legacy_prompt = true" = .ok ⟨true, "error"⟩ ∧
      ∃ e, Sieve.schema.ofText "output.legacy_prompt = true" =
        .error (.undecodable "output.legacy_prompt = true" e) := by
  let output : Span := ⟨"output.legacy_prompt = true".toList, ".legacy_prompt = true".toList⟩
  let legacyPrompt : Span := ⟨"legacy_prompt = true".toList, " = true".toList⟩
  have hread : read? "output.legacy_prompt = true" = some [(⟨"output", output⟩, .table none .dotted
      [(⟨"legacy_prompt", legacyPrompt⟩, .boolean ⟨"true".toList, []⟩ true)])] := rfl
  obtain ⟨hprompt, hpolicy⟩ := ofText_answers hread
  refine ⟨_, hread, (hprompt.accepted _).2 ⟨?_, ?_, rfl⟩, hpolicy.refused ?_⟩
  · exact List.forall_mem_singleton.2 (.inl rfl)
  · exact .table _ _ rfl (.mk _ _)
  · rintro ⟨settings, hstates⟩
    have hknown := hstates.known _ List.mem_cons_self
    revert hknown
    decide

end LeibnizSieve.Config
