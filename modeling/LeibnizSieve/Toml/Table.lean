import LeibnizSieve.Toml.Value

/-!
Tables grow by assignments and headers. A key is given a value once, and a table that was closed
or written under a header of its own is not reopened by a dotted key. Main statement: an
assignment to a fresh key puts it last.
-/

namespace LeibnizSieve.Toml

/-- A value for the last of some keys, in the table that the others lead to. -/
structure Assignment where
  path : List Key
  key : Key
  value : Value

/-- Follows keys into nested tables and lets `leaf` change the table they lead to. Tables that do
not exist are made on the way; a list of tables stands for its last one. A closed table, a value
and, for a dotted key, a table with a header of its own stop the descent. -/
def descend {α : Type} (dotted : Bool) (leaf : TableForm → Entries → Option (α × Entries)) :
    List Key → TableForm → Entries → Option (α × Entries)
  | [], form, entries => leaf form entries
  | key :: keys, _, entries =>
    match entries.find? key.name with
    | none => do
      let form := if dotted then .dotted else .implied
      let (a, inner) ← descend dotted leaf keys form []
      return (a, entries ++ [(key, .table none form inner)])
    | some (.table span form inner) =>
      if form = .inline ∨ (dotted ∧ form = .header) then none
      else do
        let (a, inner) ← descend dotted leaf keys form inner
        return (a, entries.set key.name (.table span form inner))
    | some (.tables span elements) =>
      match elements.getLast? with
      | some (.table inside form inner) => do
        let (a, inner) ← descend dotted leaf keys form inner
        return (a, entries.set key.name
          (.tables span (elements.dropLast ++ [.table inside form inner])))
      | _ => none
    | some _ => none

def Entries.assign (entries : Entries) (a : Assignment) : Option Entries :=
  (descend true
    (fun form inner =>
      if (form = .dotted) = (a.path = []) then none
      else
        match inner.find? a.key.name with
        | some _ => none
        | none => some ((), inner ++ [(a.key, a.value)]))
    a.path .header entries).map (·.2)

def Entries.assignAll (entries : Entries) : List Assignment → Option Entries
  | [] => some entries
  | a :: rest => (entries.assign a).bind (·.assignAll rest)

theorem assign_fresh (entries : Entries) (key : Key) (value : Value)
    (h : entries.find? key.name = none) :
    entries.assign ⟨[], key, value⟩ = some (entries ++ [(key, value)]) := by
  simp [Entries.assign, descend, h]

end LeibnizSieve.Toml
