import LeibnizSieve.Files.Volume
import LeibnizSieve.Proofs.Attempt
import Mathlib.Data.List.DropRight

/-! What writing a file does to a tree. Main statements: a file that was written holds the bytes
written and is read by the path that it was written by; one that was not holds less than these
bytes; and no other place changes. -/

namespace LeibnizSieve.Files.Volume

open Text Console

theorem walk_append (v : Volume) (names more : List Bytes) (place : Place) :
    v.walk (names ++ more) place = v.walk names place >>= v.walk more := by
  rw [walk, List.foldlM_append]
  rfl

@[simp] theorem walk_one (v : Volume) (name : Bytes) (place : Place) :
    v.walk [name] place = v.step place name := by
  rw [walk, List.foldlM_cons]
  cases v.step place name <;> rfl

theorem folder_of_step {v : Volume} {name : Bytes} {place next : Place}
    (h : v.step place name = .ok next) : v.entryAt place = some .folder := by
  unfold step at h
  split at h
  · cases h
  · assumption
  · cases h

structure Enterable (v : Volume) (place : Place) : Prop where
  folder : v.entryAt place = some .folder
  free : v.refusal Refusal.entering? place = none

theorem step_enterable {v : Volume} {name : Bytes} {place : Place} (h : v.Enterable place)
    (hne : name ≠ []) : v.step place name = v.stepFrom place name := by
  simp only [step, h.folder, hne, h.free, ↓reduceIte]

theorem enterable_of_step {v : Volume} {name : Bytes} {place next : Place} (hne : name ≠ [])
    (h : v.step place name = .ok next) : v.Enterable place := by
  have hf := folder_of_step h
  simp only [step, hf, hne, ↓reduceIte] at h
  split at h
  · cases h
  · exact ⟨hf, by assumption⟩

theorem step_dot {v : Volume} {place : Place} (h : v.Enterable place) :
    v.step place dot = .ok place := by
  rw [step_enterable h (by decide), stepFrom, if_pos rfl]

/-- A name that leads down, not back and not to where it starts. -/
structure Plain (name : Bytes) : Prop where
  ne_nil : name ≠ []
  ne_dot : name ≠ dot
  ne_dotDot : name ≠ dotDot
  length_le : name.length ≤ 255

theorem step_plain {v : Volume} {name : Bytes} {place : Place} (hn : Plain name)
    (h : v.Enterable place) (hs : (v.entryAt (place ++ [name])).isSome) :
    v.step place name = .ok (place ++ [name]) := by
  have hlen : ¬ 255 < name.length := Nat.not_lt.2 hn.length_le
  rw [step_enterable h hn.ne_nil]
  simp only [stepFrom, hn.ne_dot, hn.ne_dotDot, hlen, hs, ↓reduceIte]

/-- Every folder is still one and refuses no more, and every place that existed still exists. -/
structure Keeps (v v' : Volume) : Prop where
  current : v'.current = v.current
  refusals : v'.refusals = v.refusals
  folder : ∀ p, v.entryAt p = some .folder → v'.entryAt p = some .folder
  exist : ∀ p, (v.entryAt p).isSome → (v'.entryAt p).isSome

section Keeping

variable {v v' : Volume} {name : Bytes} {place next : Place}

theorem Keeps.refusal (hk : v.Keeps v') {α : Type} (kind : Refusal → Option α) (place : Place) :
    v'.refusal kind place = v.refusal kind place := by
  rw [Volume.refusal, Volume.refusal, hk.refusals]

theorem Keeps.enterable (hk : v.Keeps v') (h : v.Enterable place) : v'.Enterable place :=
  ⟨hk.folder place h.folder, (hk.refusal _ place).trans h.free⟩

theorem Keeps.stepFrom (hk : v.Keeps v') (h : v.stepFrom place name = .ok next) :
    v'.stepFrom place name = .ok next := by
  rw [Volume.stepFrom] at h ⊢
  by_cases hs : (v.entryAt (place ++ [name])).isSome
  · rw [if_pos hs] at h
    rw [if_pos (hk.exist _ hs)]
    exact h
  · rw [if_neg hs] at h
    by_cases hdot : name = dot
    · simpa only [hdot, ↓reduceIte] using h
    · by_cases hback : name = dotDot
      · simpa only [hdot, hback, ↓reduceIte] using h
      · by_cases hlong : 255 < name.length
        all_goals simp [hdot, hback, hlong] at h

theorem Keeps.step (hk : v.Keeps v') (h : v.step place name = .ok next) :
    v'.step place name = .ok next := by
  have hf := folder_of_step h
  by_cases hne : name = []
  · simp only [Volume.step, hf, hne, ↓reduceIte] at h
    simp only [Volume.step, hk.folder place hf, hne, ↓reduceIte, h]
  · have hplace := enterable_of_step hne h
    rw [step_enterable hplace hne] at h
    rw [step_enterable (hk.enterable hplace) hne]
    exact hk.stepFrom h

end Keeping

theorem Keeps.walk {v v' : Volume} (hk : v.Keeps v') {names : List Bytes} {place last : Place}
    (h : v.walk names place = .ok last) : v'.walk names place = .ok last := by
  induction names generalizing place with
  | nil => exact h
  | cons name names ih =>
    rw [Volume.walk, List.foldlM_cons, bind_eq_ok] at h
    obtain ⟨next, hstep, hrest⟩ := h
    rw [Volume.walk, List.foldlM_cons, hk.step hstep, ok_bind]
    exact ih hrest

theorem named_of_length_le {names : List Bytes} {name : Bytes}
    (hlength : names.length ≤ (named names).length)
    (hlast : (named names).getLast? = some name) :
    named names = names ∧ names.dropLast ++ [name] = names ∧ name ≠ [] := by
  have hdrop : named names = names.rdropWhile (· = []) := rfl
  have hprefix : names.rdropWhile (· = []) <+: names := List.rdropWhile_prefix ..
  have hall : names.rdropWhile (· = []) = names :=
    hprefix.eq_of_length (Nat.le_antisymm hprefix.length_le hlength)
  rw [hdrop, hall] at hlast
  refine ⟨hdrop.trans hall, List.dropLast_append_getLast? name hlast, ?_⟩
  intro hname
  subst hname
  have hne : names ≠ [] := by
    intro hnil
    subst hnil
    cases hlast
  rw [List.getLast?_eq_some_getLast hne, Option.some.injEq] at hlast
  exact List.rdropWhile_eq_self_iff.1 hall hne (by simp [hlast])

theorem target_eq_ok {v : Volume} {path : Bytes} {place : Place} (h : v.target path = .ok place) :
    ∃ start names name folder, v.begin path = .ok (start, names ++ [name]) ∧
      v.walk names start = .ok folder ∧ v.Enterable folder ∧ Plain name ∧
      place = folder ++ [name] := by
  rw [target, bind_eq_ok] at h
  obtain ⟨⟨start, names⟩, hbegin, h⟩ := h
  dsimp only at h
  cases hlast : (named names).getLast? with
  | none =>
    rw [hlast] at h
    cases h
  | some name =>
    rw [hlast, bind_eq_ok] at h
    obtain ⟨folder, hwalk, h⟩ := h
    by_cases hname : name = dot ∨ name = dotDot ∨ (named names).length < names.length
    · rw [if_pos hname] at h
      cases h
    · rw [if_neg hname] at h
      rw [not_or, not_or, Nat.not_lt] at hname
      obtain ⟨hdot, hback, hlength⟩ := hname
      by_cases hlen : 255 < name.length
      · rw [if_pos hlen] at h
        cases h
      · rw [if_neg hlen] at h
        cases h
        obtain ⟨hnamed, hnames, hne⟩ := named_of_length_le hlength hlast
        rw [hnamed, walk_append, bind_eq_ok] at hwalk
        obtain ⟨parent, hparent, hstay⟩ := hwalk
        rw [walk_one] at hstay
        have hf := enterable_of_step (by decide) hstay
        rw [step_dot hf] at hstay
        cases hstay
        refine ⟨start, names.dropLast, name, folder, ?_, hparent, hf,
          ⟨hne, hdot, hback, Nat.le_of_not_lt hlen⟩, rfl⟩
        rw [hnames]
        exact hbegin

theorem begin_congr {v v' : Volume} (h : v'.current = v.current) (path : Bytes) :
    v'.begin path = v.begin path := by
  simp only [begin, h]

theorem resolve_target {v v' : Volume} {path : Bytes} {place : Place} (hk : v.Keeps v')
    (ht : v.target path = .ok place) (hs : (v'.entryAt place).isSome) :
    ∃ start names, v'.begin path = .ok (start, names) ∧ v'.walk names start = .ok place := by
  obtain ⟨start, names, name, folder, hbegin, hwalk, hf, hn, rfl⟩ := target_eq_ok ht
  refine ⟨start, names ++ [name], ?_, ?_⟩
  · rw [begin_congr hk.current, hbegin]
  · rw [walk_append, hk.walk hwalk, ok_bind, walk_one]
    exact step_plain hn (hk.enterable hf) hs

theorem read_file {v v' : Volume} {path : Bytes} {place : Place} {contents : Bytes}
    (hk : v.Keeps v') (ht : v.target path = .ok place)
    (he : v'.entryAt place = some (.file contents))
    (hr : v.refusal Refusal.reading? place = none) : v'.read path = .ok contents := by
  obtain ⟨start, names, hbegin, hwalk⟩ := resolve_target hk ht (by rw [he]; rfl)
  rw [read, hbegin, ok_bind]
  dsimp only
  rw [hwalk, ok_bind, he, hk.refusal, hr]
  rfl

/-- A place whose contents nothing changes. -/
def Device (v : Volume) (place : Place) : Prop :=
  v.entryAt place = some .discard ∨ v.entryAt place = some .full

theorem create_eq_ok {v created : Volume} {path : Bytes} {place : Place}
    (h : v.create path = .ok (created, place)) :
    v.target path = .ok place ∧ v.entryAt place ≠ some .folder ∧
      ((v.Device place ∧ created = v) ∨
        (¬ v.Device place ∧ created = v.put place (.file []))) := by
  rw [create, bind_eq_ok] at h
  obtain ⟨target, ht, h⟩ := h
  unfold Device
  split at h
  · cases h
  · cases h
  · rename_i he hr
    cases h
    simp [ht, he]
  · rename_i he hr
    cases h
    simp [ht, he]
  · rename_i he hr
    cases h
    simp [ht, he]
  · rename_i he hr
    cases h
    simp [ht, he]

theorem ne_root_of_target {v : Volume} {path : Bytes} {place : Place}
    (h : v.target path = .ok place) : place ≠ [] := by
  obtain ⟨start, names, name, folder, -, -, -, -, rfl⟩ := target_eq_ok h
  simp

theorem fill_device {v : Volume} {place : Place} (hd : v.Device place) (bytes : Bytes) :
    (v.fill place bytes).2 = v := by
  rcases hd with h | h
  all_goals rw [fill, h]

section FileAt

variable {v : Volume} {place : Place} {contents : Bytes}

theorem fill_attempt (h : v.entryAt place = some (.file contents)) (bytes : Bytes) :
    (v.fill place bytes).1 =
      if (v.quota place).1.fits bytes then .ok () else .error (v.quota place).2 := by
  rw [fill, h]

theorem fill_entry (hp : place ≠ []) (h : v.entryAt place = some (.file contents))
    (bytes : Bytes) : (v.fill place bytes).2.entryAt place =
      some (.file ((v.quota place).1.accepts bytes)) := by
  rw [fill, h]
  exact entry_put_self v _ hp

theorem fill_other (h : v.entryAt place = some (.file contents)) (bytes : Bytes) {other : Place}
    (ho : other ≠ place) : (v.fill place bytes).2.entryAt other = v.entryAt other := by
  rw [fill, h]
  exact entry_put_other v _ ho

theorem fill_current (h : v.entryAt place = some (.file contents)) (bytes : Bytes) :
    (v.fill place bytes).2.current = v.current := by
  rw [fill, h]
  exact current_put v place _

theorem fill_refusals (h : v.entryAt place = some (.file contents)) (bytes : Bytes) :
    (v.fill place bytes).2.refusals = v.refusals := by
  rw [fill, h]
  exact refusals_put v place _

end FileAt

section Created

variable {v created : Volume} {path : Bytes} {place : Place}

theorem filled_other (h : v.create path = .ok (created, place)) (bytes : Bytes) {other : Place}
    (ho : other ≠ place) : (created.fill place bytes).2.entryAt other = v.entryAt other := by
  obtain ⟨ht, -, ⟨hd, rfl⟩ | ⟨-, rfl⟩⟩ := create_eq_ok h
  · rw [fill_device hd]
  · have he := entry_put_self v (.file []) (ne_root_of_target ht)
    rw [fill_other he bytes ho, entry_put_other v _ ho]

theorem filled_entry (h : v.create path = .ok (created, place)) (hd : ¬ v.Device place)
    (bytes : Bytes) : (created.fill place bytes).2.entryAt place =
      some (.file ((created.quota place).1.accepts bytes)) := by
  obtain ⟨ht, -, ⟨hd', -⟩ | ⟨-, rfl⟩⟩ := create_eq_ok h
  · exact absurd hd' hd
  · have hp := ne_root_of_target ht
    exact fill_entry hp (entry_put_self v (.file []) hp) bytes

theorem filled_attempt (h : v.create path = .ok (created, place)) (hd : ¬ v.Device place)
    (bytes : Bytes) : (created.fill place bytes).1 =
      if (created.quota place).1.fits bytes then .ok ()
      else .error (created.quota place).2 := by
  obtain ⟨ht, -, ⟨hd', -⟩ | ⟨-, rfl⟩⟩ := create_eq_ok h
  · exact absurd hd' hd
  · exact fill_attempt (entry_put_self v (.file []) (ne_root_of_target ht)) bytes

theorem filled_keeps (h : v.create path = .ok (created, place)) (bytes : Bytes) :
    v.Keeps (created.fill place bytes).2 := by
  obtain ⟨ht, hfolder, ⟨hd, rfl⟩ | ⟨hd, rfl⟩⟩ := create_eq_ok h
  · rw [fill_device hd]
    exact ⟨rfl, rfl, fun _ hf => hf, fun _ hs => hs⟩
  · have he := entry_put_self v (.file []) (ne_root_of_target ht)
    refine ⟨?_, ?_, ?_, ?_⟩
    · rw [fill_current he, current_put]
    · rw [fill_refusals he, refusals_put]
    · intro p hf
      have hp : p ≠ place := by
        intro heq
        subst heq
        exact hfolder hf
      rw [filled_other h bytes hp, hf]
    · intro p hs
      by_cases hp : p = place
      · subst hp
        rw [filled_entry h hd]
        rfl
      · rw [filled_other h bytes hp]
        exact hs

theorem filled_device (h : v.create path = .ok (created, place)) (hd : v.Device place)
    (bytes : Bytes) : (created.fill place bytes).2 = v := by
  obtain ⟨-, -, ⟨-, rfl⟩ | ⟨hd', -⟩⟩ := create_eq_ok h
  · exact fill_device hd bytes
  · exact absurd hd hd'

theorem filled_whole (h : v.create path = .ok (created, place)) (hd : ¬ v.Device place)
    {bytes : Bytes} (hok : (created.fill place bytes).1 = .ok ()) :
    (created.fill place bytes).2.entryAt place = some (.file bytes) := by
  rw [filled_attempt h hd] at hok
  rw [filled_entry h hd]
  cases hfits : (created.quota place).1.fits bytes with
  | true => rw [Room.accepts_of_fits hfits]
  | false =>
    rw [hfits] at hok
    cases hok

theorem filled_part (h : v.create path = .ok (created, place)) (hd : ¬ v.Device place)
    {bytes : Bytes} {e : FileError} (herr : (created.fill place bytes).1 = .error e) :
    ∃ n < bytes.length,
      (created.fill place bytes).2.entryAt place = some (.file (bytes.take n)) := by
  rw [filled_attempt h hd] at herr
  rw [filled_entry h hd]
  cases hfits : (created.quota place).1.fits bytes with
  | true =>
    rw [hfits] at herr
    cases herr
  | false =>
    obtain ⟨n, hn, hpart⟩ := Room.accepts_of_not_fits hfits
    exact ⟨n, hn, by rw [hpart]⟩

theorem read_filled (h : v.create path = .ok (created, place)) {bytes contents : Bytes}
    (hfile : (created.fill place bytes).2.entryAt place = some (.file contents))
    (hr : v.refusal Refusal.reading? place = none) :
    (created.fill place bytes).2.read path = .ok contents :=
  read_file (filled_keeps h bytes) (create_eq_ok h).1 hfile hr

end Created

end LeibnizSieve.Files.Volume
