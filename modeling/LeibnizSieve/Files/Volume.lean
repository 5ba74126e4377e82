import LeibnizSieve.Console.Sink

/-!
A tree of folders, files and devices, and the rules by which a path names one of them. Reading
and writing are the two steps a program takes; each either answers or fails with a cause.
-/

namespace LeibnizSieve.Files

open Text Console

inductive FileError where
  | notFound
  | notADirectory
  | isADirectory
  | noSpace
  | nameTooLong
  | nulInName
  | notText
  /-- Any other cause, in the words of the system. -/
  | other (words : String)
  deriving DecidableEq, Repr

def FileError.message : FileError → String
  | .notFound => "No such file or directory (os error 2)"
  | .notADirectory => "Not a directory (os error 20)"
  | .isADirectory => "Is a directory (os error 21)"
  | .noSpace => "No space left on device (os error 28)"
  | .nameTooLong => "File name too long (os error 36)"
  | .nulInName => "file name contained an unexpected NUL byte"
  | .notText => "stream did not contain valid UTF-8"
  | .other words => words

/-- What a place in the tree holds. Both devices read as empty; one takes every byte and keeps
none, the other takes none. -/
inductive Entry where
  | folder
  | file (contents : Bytes)
  | discard
  | full
  deriving DecidableEq, Repr

abbrev Place := List Bytes

/-- A refusal that the tree does not explain, such as a missing right or a failing disk. One may be
in the way of what a folder holds, of reading a place, of emptying or making it, and of writing more
than so many bytes to it. -/
inductive Refusal where
  | entering (cause : FileError)
  | reading (cause : FileError)
  | creating (cause : FileError)
  | writing (taken : Nat) (cause : FileError)
  deriving DecidableEq, Repr

namespace Refusal

def entering? : Refusal → Option FileError
  | entering cause => some cause
  | _ => none

def reading? : Refusal → Option FileError
  | reading cause => some cause
  | _ => none

def creating? : Refusal → Option FileError
  | creating cause => some cause
  | _ => none

def writing? : Refusal → Option (Nat × FileError)
  | writing taken cause => some (taken, cause)
  | _ => none

end Refusal

/-- The places that exist, in order of creation; the root always exists. `room` is what all
files together may still grow by. -/
structure Volume where
  entries : List (Place × Entry)
  current : Place
  room : Room
  refusals : List (Place × Refusal) := []
  deriving DecidableEq, Repr

namespace Volume

def slash : UInt8 := 47

def dot : Bytes := [46]

def dotDot : Bytes := [46, 46]

def entryAt (v : Volume) (place : Place) : Option Entry :=
  if place = [] then some .folder
  else (v.entries.find? (·.1 = place)).map (·.2)

def refusal {α : Type} (v : Volume) (kind : Refusal → Option α) (place : Place) : Option α :=
  v.refusals.findSome? fun (p, r) => if p = place then kind r else none

def put (v : Volume) (place : Place) (entry : Entry) : Volume :=
  if v.entries.any (·.1 = place) then
    { v with entries := v.entries.map fun e => if e.1 = place then (place, entry) else e }
  else { v with entries := v.entries ++ [(place, entry)] }

def components (path : Bytes) : Bool × List Bytes :=
  match path.splitOn slash with
  | [] => (false, [])
  | first :: rest => if first = [] ∧ rest ≠ [] then (true, rest) else (false, first :: rest)

def stepFrom (v : Volume) (place : Place) (name : Bytes) : Except FileError Place :=
  if name = dot then .ok place
  else if name = dotDot then .ok place.dropLast
  else if 255 < name.length then .error .nameTooLong
  else if (v.entryAt (place ++ [name])).isSome then .ok (place ++ [name])
  else .error .notFound

/-- One component further. Every component needs a folder to start from, an empty one too, but that
does not enter it. -/
def step (v : Volume) (place : Place) (name : Bytes) : Except FileError Place :=
  match v.entryAt place with
  | none => .error .notFound
  | some .folder =>
    if name = [] then .ok place
    else
      match v.refusal Refusal.entering? place with
      | some cause => .error cause
      | none => v.stepFrom place name
  | some _ => .error .notADirectory

def walk (v : Volume) (names : List Bytes) (place : Place) : Except FileError Place :=
  names.foldlM v.step place

def begin (v : Volume) (path : Bytes) : Except FileError (Place × List Bytes) :=
  if 0 ∈ path then .error .nulInName
  else if path = [] then .error .notFound
  else if 4096 ≤ path.length then .error .nameTooLong
  else
    let (absolute, names) := components path
    .ok (if absolute then [] else v.current, names)

def read (v : Volume) (path : Bytes) : Except FileError Bytes := do
  let (start, names) ← v.begin path
  let place ← v.walk names start
  match v.entryAt place, v.refusal Refusal.reading? place with
  | none, _ => throw .notFound
  | some _, some cause => throw cause
  | some .folder, none => throw .isADirectory
  | some (.file contents), none => return contents
  | some .discard, none | some .full, none => return []

def readText (v : Volume) (path : Bytes) : Except FileError String := do
  let bytes ← v.read path
  match ofUtf8? bytes with
  | some text => return text
  | none => throw .notText

def named (names : List Bytes) : List Bytes :=
  (names.reverse.dropWhile (· = [])).reverse

/-- The place a path names for writing. The folder it lies in has to exist; a path that ends in
a slash or in dots names a folder. -/
def target (v : Volume) (path : Bytes) : Except FileError Place := do
  let (start, names) ← v.begin path
  match (named names).getLast? with
  | none => throw .isADirectory
  | some name =>
    let parent ← v.walk ((named names).dropLast ++ [dot]) start
    if name = dot ∨ name = dotDot ∨ (named names).length < names.length then throw .isADirectory
    else if 255 < name.length then throw .nameTooLong
    else return parent ++ [name]

/-- Empties the file at a path or makes a new one. Nothing changes when this fails. -/
def create (v : Volume) (path : Bytes) : Except FileError (Volume × Place) := do
  let place ← v.target path
  match v.entryAt place, v.refusal Refusal.creating? place with
  | some .folder, _ => throw .isADirectory
  | _, some cause => throw cause
  | some .discard, none | some .full, none => return (v, place)
  | some (.file _), none | none, none => return (v.put place (.file []), place)

def quota (v : Volume) (place : Place) : Room × FileError :=
  match v.refusal Refusal.writing? place, v.room with
  | none, room => (room, .noSpace)
  | some (taken, cause), none => (some taken, cause)
  | some (taken, cause), some n => if taken < n then (some taken, cause) else (some n, .noSpace)

/-- Fills a place that was created. What does not fit is left out. -/
def fill (v : Volume) (place : Place) (bytes : Bytes) : Except FileError Unit × Volume :=
  match v.entryAt place with
  | some .full => (if bytes = [] then .ok () else .error .noSpace, v)
  | some (.file _) =>
    let (room, cause) := v.quota place
    (if room.fits bytes then .ok () else .error cause,
      { v.put place (.file (room.accepts bytes)) with
        room := v.room.after (room.accepts bytes) })
  | _ => (.ok (), v)

def write (v : Volume) (path : Bytes) (bytes : Bytes) : Except FileError Unit × Volume :=
  match v.create path with
  | .error e => (.error e, v)
  | .ok (created, place) => created.fill place bytes

def makeFolders (v : Volume) (path : Bytes) : Volume :=
  let (absolute, names) := components path
  (names.foldl step (v, if absolute then [] else v.current)).1
where
  step : Volume × Place → Bytes → Volume × Place
    | (v, place), name =>
      if name = [] ∨ name = dot then (v, place)
      else if name = dotDot then (v, place.dropLast)
      else
        let below := place ++ [name]
        (if (v.entryAt below).isNone then v.put below .folder else v, below)

def listing (v : Volume) : List (Bytes × Entry) :=
  v.entries.filterMap fun (place, entry) =>
    if v.current.isPrefixOf place ∧ place ≠ v.current then
      some ([slash].intercalate (place.drop v.current.length), entry)
    else none

theorem readText_eq_ok {v : Volume} {path : Bytes} {text : String} :
    v.readText path = .ok text ↔ v.read path = .ok (utf8 text) := by
  cases hread : v.read path with
  | error e =>
    have h : v.readText path = .error e := by
      rw [readText, hread]
      rfl
    rw [h]
    constructor <;> intro h <;> cases h
  | ok bytes =>
    rw [readText, hread, Except.ok.injEq, ← ofUtf8_eq_some]
    simp only [bind, Except.bind]
    cases ofUtf8? bytes with
    | none => simp
    | some text' => simp [pure, Except.pure]

theorem create_error {v : Volume} {path bytes : Bytes} {e : FileError}
    (h : v.create path = .error e) : v.write path bytes = (.error e, v) := by
  simp [write, h]

theorem create_ok {v created : Volume} {path bytes : Bytes} {place : Place}
    (h : v.create path = .ok (created, place)) : v.write path bytes = created.fill place bytes := by
  rw [write, h]

theorem current_put (v : Volume) (place : Place) (entry : Entry) :
    (v.put place entry).current = v.current := by
  unfold put
  split <;> rfl

theorem refusals_put (v : Volume) (place : Place) (entry : Entry) :
    (v.put place entry).refusals = v.refusals := by
  unfold put
  split <;> rfl

theorem entry_put_self (v : Volume) {place : Place} (entry : Entry) (h : place ≠ []) :
    (v.put place entry).entryAt place = some entry := by
  simp only [entryAt, h, ↓reduceIte, put]
  split
  · rename_i hm
    rw [List.find?_map]
    simp only [List.any_eq_true, decide_eq_true_eq] at hm
    obtain ⟨e, he, rfl⟩ := hm
    cases hf : v.entries.find? fun x => x.1 = e.1 with
    | none =>
      have := List.find?_eq_none.1 hf e he
      simp at this
    | some x =>
      have hx := List.find?_some hf
      have hc : ((fun y : Place × Entry => decide (y.1 = e.1)) ∘
          fun y => if y.1 = e.1 then (e.1, entry) else y) = fun y => decide (y.1 = e.1) := by
        funext y
        by_cases hy : y.1 = e.1 <;> simp [hy]
      rw [hc, hf]
      simp only [decide_eq_true_eq] at hx
      simp [hx]
  · rename_i hm
    have hn : v.entries.find? (fun x => decide (x.1 = place)) = none := by
      rw [List.find?_eq_none]
      intro x hx hp
      exact hm (List.any_eq_true.2 ⟨x, hx, hp⟩)
    simp [List.find?_append, hn]

theorem entry_put_other (v : Volume) {place other : Place} (entry : Entry) (h : other ≠ place) :
    (v.put place entry).entryAt other = v.entryAt other := by
  simp only [entryAt, put]
  split
  · rfl
  · split
    · rw [List.find?_map]
      have hc : ((fun y : Place × Entry => decide (y.1 = other)) ∘
          fun y => if y.1 = place then (place, entry) else y) = fun y => decide (y.1 = other) := by
        funext y
        by_cases hy : y.1 = place <;> simp [hy]
      rw [hc]
      cases hf : v.entries.find? fun y => y.1 = other with
      | none => rfl
      | some x =>
        have hx := List.find?_some hf
        simp only [decide_eq_true_eq] at hx
        have : x.1 ≠ place := hx ▸ h
        simp [this]
    · have : ¬ place = other := fun e => h e.symm
      simp [List.find?_append, this]

end Volume

end LeibnizSieve.Files
