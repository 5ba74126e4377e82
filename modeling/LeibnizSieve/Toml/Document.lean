import LeibnizSieve.Toml.Statement

/-!
Documents from statements. The table under a header is kept apart while it grows, and takes its
place, last in its parent, when the next header or the end of the text closes it.
-/

namespace LeibnizSieve.Toml

structure Heading where
  path : List Key
  key : Key
  repeated : Bool
  span : Span

/-- A document under construction: what is closed, and the table that is growing. Without a
heading the growing table is the document itself. -/
structure Draft where
  closed : Entries
  heading : Option Heading
  growing : Entries

namespace Draft

def empty : Draft := ⟨[], none, []⟩

def joinTables (h : Heading) (growing : Entries) (entries : Entries) : Option Entries :=
  let table := Value.table (some h.span) .header growing
  match entries.find? h.key.name with
  | none => some (entries ++ [(h.key, .tables h.span [table])])
  | some (.tables span others) =>
    some (entries.set h.key.name (.tables (span.to h.span) (others ++ [table])))
  | some _ => none

def placeTable (h : Heading) (growing : Entries) (entries : Entries) : Option Entries :=
  match entries.find? h.key.name with
  | none => some (entries ++ [(h.key, .table (some h.span) .header growing)])
  | some _ => none

def close (d : Draft) : Option Entries :=
  match d.heading with
  | none => some d.growing
  | some h =>
    (descend false
      (fun _ entries =>
        ((if h.repeated then joinTables else placeTable) h d.growing entries).map ((), ·))
      h.path .header d.closed).map (·.2)

/-- What a longer header has put into a table before it gets a header of its own. Any other value
of the name is in the way. -/
def takeImplied (key : Key) (_ : TableForm) (entries : Entries) : Option (Entries × Entries) :=
  match entries.find? key.name with
  | none => some ([], entries)
  | some (.table _ .implied inner) => some (inner, entries.erase key.name)
  | some _ => none

def step (d : Draft) : Statement → Option Draft
  | .assignment a => do
    let growing ← d.growing.assign a
    let heading := d.heading.map fun h =>
      { h with span := (a.value.span?.map h.span.to).getD h.span }
    return { d with growing, heading }
  | .header path key span => do
    let (growing, closed) ← descend false (takeImplied key) path .header (← d.close)
    return ⟨closed, some ⟨path, key, false, span⟩, growing⟩
  | .repeatedHeader path key span => do
    return ⟨← d.close, some ⟨path, key, true, span⟩, []⟩

def steps (d : Draft) : List Statement → Option Draft
  | [] => some d
  | s :: rest => (d.step s).bind (·.steps rest)

end Draft

def ofStatements? (ss : List Statement) : Option Entries :=
  (Draft.empty.steps ss).bind Draft.close

def read? (text : String) : Option Entries :=
  (statementsOf? text.toList).bind ofStatements?

end LeibnizSieve.Toml
