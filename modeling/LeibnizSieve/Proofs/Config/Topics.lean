import Mathlib.Data.List.Forall2
import LeibnizSieve.Config.Settings
import LeibnizSieve.Sieve.Run
import LeibnizSieve.Proofs.Toml.DistinctKeys

/-! What documents say about settings, in terms of their tables and values alone. It does not depend
on where in a text they stand, or on the order of keys. -/

namespace LeibnizSieve.Config

open Toml

/-- A part of the settings as documents see it: the section it lies in, the one field of that, what
the values of the field mean, and what holds without any. -/
structure Topic (α : Type) where
  name : String
  field : String
  Means : Value → α → Prop
  default : α

section Topics

inductive IsBoolean : Value → Bool → Prop
  | mk (span : Span) (b : Bool) : IsBoolean (.boolean span b) b

inductive IsString : Value → String → Prop
  | mk (span : Span) (s : String) : IsString (.string span s) s

inductive PolicyName : String → Sieve.Policy → Prop
  | silent : PolicyName "silent" .silent
  | report : PolicyName "report" .report

/-- The elements of an array; tables under repeated headers are one. -/
inductive Listed : Value → List Value → Prop
  | array (span : Span) (vs : List Value) : Listed (.array span vs) vs
  | tables (span : Span) (vs : List Value) : Listed (.tables span vs) vs

inductive Vacant : Value → Prop
  | table (span : Option Span) (form : TableForm) : Vacant (.table span form [])
  | array {v : Value} (hlist : Listed v []) : Vacant v

/-- A policy is its name, or a table with its name as the only key and nothing under it. -/
inductive IsPolicy : Value → Sieve.Policy → Prop
  | string {name : String} {p : Sieve.Policy} (span : Span) (hname : PolicyName name p) :
    IsPolicy (.string span name) p
  | table {key : Key} {payload : Value} {p : Sieve.Policy} (span : Option Span) (form : TableForm)
    (hname : PolicyName key.name p) (hvacant : Vacant payload) :
    IsPolicy (.table span form [(key, payload)]) p

def prompt : Topic Bool where
  name := "output"
  field := "legacy_prompt"
  Means := IsBoolean
  default := false

def policy : Topic Sieve.Policy where
  name := "sieve"
  field := "on_alloc_failure"
  Means := IsPolicy
  default := .silent

def level : Topic String where
  name := "log"
  field := "level"
  Means := IsString
  default := "error"

end Topics

namespace Topic

variable {α : Type}

/-- What a section says: a table has no key but the field, and of an array the first element is read
as the field. -/
inductive Says (t : Topic α) : Value → α → Prop
  | emptyTable (span : Option Span) (form : TableForm) : t.Says (.table span form []) t.default
  | table {key : Key} {v : Value} {a : α} (span : Option Span) (form : TableForm)
    (hname : key.name = t.field) (hv : t.Means v a) : t.Says (.table span form [(key, v)]) a
  | emptyArray {v : Value} (hlist : Listed v []) : t.Says v t.default
  | array {v first : Value} {rest : List Value} {a : α} (hlist : Listed v (first :: rest))
    (hfirst : t.Means first a) : t.Says v a

end Topic

def Chosen {α : Type} (entries : Entries) (name : String) (P : Value → α → Prop) (default a : α) :
    Prop :=
  match entries.find? name with
  | none => a = default
  | some v => P v a

/-- What a document with no sections but the two says about both. -/
structure States {α : Type} (own : Topic α) (document : Entries) (settings : Settings α) :
    Prop where
  known : ∀ e ∈ document, e.1.name = own.name ∨ e.1.name = level.name
  choice : Chosen document own.name own.Says own.default settings.choice
  level : Chosen document level.name level.Says level.default settings.level

/-- The same values, wherever they are written and in which order keys are. -/
inductive Alike : Value → Value → Prop
  | string (s s' : Span) (text : String) : Alike (.string s text) (.string s' text)
  | integer (s s' : Span) (value : Int) : Alike (.integer s value) (.integer s' value)
  | float (s s' : Span) (value : Float) : Alike (.float s value) (.float s' value)
  | boolean (s s' : Span) (value : Bool) : Alike (.boolean s value) (.boolean s' value)
  | datetime (s s' : Span) : Alike (.datetime s) (.datetime s')
  | array {vs ws : List Value} (s s' : Span) (h : List.Forall₂ Alike vs ws) :
    Alike (.array s vs) (.array s' ws)
  | tables {vs ws : List Value} (s s' : Span) (h : List.Forall₂ Alike vs ws) :
    Alike (.tables s vs) (.tables s' ws)
  | table {es fs : Entries} (s s' : Option Span) (form form' : TableForm)
    (h : ∀ name, Option.Rel Alike (Entries.find? es name) (Entries.find? fs name)) :
    Alike (.table s form es) (.table s' form' fs)

theorem Alike.symm {v w : Value} (h : Alike v w) : Alike w v := by
  refine @Alike.rec (fun v w _ => Alike w v) (fun vs ws _ => List.Forall₂ Alike ws vs)
    (fun a b _ => Option.Rel Alike b a) ?_ ?_ ?_ ?_ ?_ ?_ ?_ ?_ .nil ?_ ?_ .none v w h
  · exact fun s s' text => .string s' s text
  · exact fun s s' value => .integer s' s value
  · exact fun s s' value => .float s' s value
  · exact fun s s' value => .boolean s' s value
  · exact fun s s' => .datetime s' s
  · exact fun s s' _ ih => .array s' s ih
  · exact fun s s' _ ih => .tables s' s ih
  · exact fun s s' form form' _ ih => .table s' s form' form ih
  · exact fun _ _ ih ihs => .cons ih ihs
  · exact fun _ ih => .some ih

def AlikeEntries (es fs : Entries) : Prop :=
  ∀ name, Option.Rel Alike (es.find? name) (fs.find? name)

namespace AlikeEntries

variable {es fs : Entries}

theorem symm (h : AlikeEntries es fs) : AlikeEntries fs es := by
  intro name
  have hname := h name
  generalize es.find? name = a, fs.find? name = b at hname ⊢
  cases hname with
  | some h => exact .some h.symm
  | none => exact .none

theorem find_isSome (h : AlikeEntries es fs) {key : Key} {w : Value} (hmem : (key, w) ∈ fs) :
    ∃ v, es.find? key.name = some v := by
  have hname := h key.name
  cases hfound : es.find? key.name with
  | some v => exact ⟨v, rfl⟩
  | none =>
    rw [hfound] at hname
    cases hnone : fs.find? key.name with
    | some w =>
      rw [hnone] at hname
      cases hname
    | none => exact absurd rfl (Entries.find_eq_none.1 hnone _ hmem)

theorem eq_nil (h : AlikeEntries [] fs) : fs = [] := by
  refine List.eq_nil_iff_forall_not_mem.2 fun e he => ?_
  obtain ⟨v, hv⟩ := h.find_isSome he
  cases hv

theorem eq_singleton {key : Key} {v : Value} (h : AlikeEntries [(key, v)] fs)
    (hfs : fs.Distinct) : ∃ key' w, fs = [(key', w)] ∧ key'.name = key.name ∧ Alike v w := by
  have hname : ∀ e ∈ fs, key.name = e.1.name := by
    intro e he
    obtain ⟨w, hw⟩ := h.find_isSome he
    rw [Entries.find_cons] at hw
    split at hw
    case isTrue heq => exact heq
    case isFalse => cases hw
  match fs with
  | [] =>
    have hkey := h key.name
    rw [Entries.find_cons, if_pos rfl] at hkey
    cases hkey
  | [(key', w)] =>
    have hkey := h key.name
    have hkey' := hname _ List.mem_cons_self
    rw [Entries.find_cons, if_pos rfl, Entries.find_cons, if_pos hkey'.symm] at hkey
    cases hkey with
    | some halike => exact ⟨key', w, rfl, hkey'.symm, halike⟩
  | e :: f :: rest =>
    have he := hname e List.mem_cons_self
    have hf := hname f (List.mem_cons_of_mem _ List.mem_cons_self)
    have hnames := hfs.names
    simp [← he, ← hf] at hnames

end AlikeEntries

section Transfer

variable {α : Type} {v w : Value}

def Topic.Invariant (t : Topic α) : Prop :=
  ∀ {v w a}, w.Distinct → Alike v w → t.Means v a → t.Means w a

theorem prompt_invariant : prompt.Invariant := by
  intro v w b _ halike h
  cases h
  cases halike
  exact .mk _ _

theorem level_invariant : level.Invariant := by
  intro v w s _ halike h
  cases h
  cases halike
  exact .mk _ _

theorem Listed.distinct {vs : List Value} (h : Listed v vs) (hv : v.Distinct) :
    ∀ e ∈ vs, e.Distinct := by
  cases h <;> cases hv <;> assumption

theorem Listed.alike {vs : List Value} (h : Listed v vs) (halike : Alike v w) :
    ∃ ws, Listed w ws ∧ List.Forall₂ Alike vs ws := by
  cases h with
  | array =>
    cases halike with
    | array s s' h => exact ⟨_, .array _ _, h⟩
  | tables =>
    cases halike with
    | tables s s' h => exact ⟨_, .tables _ _, h⟩

theorem Vacant.alike (h : Vacant v) (halike : Alike v w) : Vacant w := by
  cases h with
  | table =>
    cases halike with
    | table s s' form form' h =>
      obtain rfl := AlikeEntries.eq_nil h
      exact .table _ _
  | array hlist =>
    obtain ⟨ws, hlist', h⟩ := hlist.alike halike
    cases h
    exact .array hlist'

theorem policy_invariant : policy.Invariant := by
  intro v w p hw halike h
  cases h with
  | string span hname =>
    cases halike
    exact .string _ hname
  | table span form hname hvacant =>
    cases halike with
    | table s s' form form' h =>
      obtain ⟨key', w', rfl, hkey, halike⟩ := AlikeEntries.eq_singleton h hw.entries
      exact .table _ _ (hkey ▸ hname) (hvacant.alike halike)

theorem Topic.Says.alike {t : Topic α} (ht : t.Invariant) {a : α} (hw : w.Distinct)
    (halike : Alike v w) (h : t.Says v a) : t.Says w a := by
  cases h with
  | emptyTable =>
    cases halike with
    | table s s' form form' h =>
      obtain rfl := AlikeEntries.eq_nil h
      exact .emptyTable _ _
  | table span form hname hv =>
    cases halike with
    | table s s' form form' h =>
      obtain ⟨key', w', rfl, hkey, halike⟩ := AlikeEntries.eq_singleton h hw.entries
      have hw' := hw.entries.values _ List.mem_cons_self
      exact .table _ _ (hkey.trans hname) (ht hw' halike hv)
  | emptyArray hlist =>
    obtain ⟨ws, hlist', h⟩ := hlist.alike halike
    cases h
    exact .emptyArray hlist'
  | array hlist hfirst =>
    obtain ⟨ws, hlist', h⟩ := hlist.alike halike
    cases h with
    | cons halike _ =>
      exact .array hlist' (ht (hlist'.distinct hw _ List.mem_cons_self) halike hfirst)

theorem Chosen.alike {t : Topic α} (ht : t.Invariant) {es fs : Entries} {a : α}
    (hfs : fs.Distinct) (halike : AlikeEntries es fs) (h : Chosen es t.name t.Says t.default a) :
    Chosen fs t.name t.Says t.default a := by
  have hname := halike t.name
  unfold Chosen at h ⊢
  cases hfound : fs.find? t.name with
  | none =>
    rw [hfound] at hname
    generalize es.find? t.name = found at hname h
    cases hname
    exact h
  | some w =>
    rw [hfound] at hname
    generalize es.find? t.name = found at hname h
    cases hname with
    | some halike => exact h.alike ht (hfs.found hfound) halike

theorem States.alike {own : Topic α} (hown : own.Invariant) {document document' : Entries}
    {settings : Settings α} (hdistinct : document'.Distinct)
    (halike : AlikeEntries document document') (h : States own document settings) :
    States own document' settings := by
  refine ⟨fun e he => ?_, h.choice.alike hown hdistinct halike,
    h.level.alike level_invariant hdistinct halike⟩
  obtain ⟨v, hv⟩ := halike.find_isSome he
  obtain ⟨key, hmem, hname⟩ := Entries.mem_of_find hv
  rw [← hname]
  exact h.known _ hmem

end Transfer

end LeibnizSieve.Config
