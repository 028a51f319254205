import AsmLens.Json.Basic

/-!
# Tables of a settings file

A table is filled by the lines below its header and by dotted keys. It may be named once only:
a header opens a table that no header and no dotted key has made before, and a dotted key reaches
only into tables that dotted keys have made. A header also makes the tables in front of its last
name, and those may be opened by a header of their own later.
-/

namespace AsmLens.Toml

inductive Origin where
  /-- A header of its own. -/
  | header
  /-- A longer header, of which it is a part in front. -/
  | implied
  /-- A dotted key. -/
  | dotted
  deriving DecidableEq

/-- What a key stands for: a value, a table, or a list of tables. -/
inductive Entry where
  | value (v : Json)
  | table (origin : Origin) (entries : List (Text × Entry))
  | tables (all : List (List (Text × Entry)))

abbrev Entries := List (Text × Entry)

namespace Entries

def find? (t : Entries) (key : Text) : Option Entry := (List.find? (·.1 == key) t).map (·.2)

def set (t : Entries) (key : Text) (e : Entry) : Entries :=
  List.filter (·.1 != key) t ++ [(key, e)]

def erase (t : Entries) (key : Text) : Entries := List.filter (·.1 != key) t

/-- The entries with a value at a dotted key, whose last name is `key`. -/
def insert? : Entries → List Text → Text → Json → Option Entries
  | t, [], key, v => if (t.find? key).isSome then none else some (t.set key (.value v))
  | t, name :: path, key, v =>
    match t.find? name with
    | none => (insert? [] path key v).map fun inner => t.set name (.table .dotted inner)
    | some (.value _) => none
    | some (.table origin inner) =>
      if origin = .header ∨ (origin = .implied ∧ path.isEmpty) then none
      else (insert? inner path key v).map fun inner => t.set name (.table origin inner)
    | some (.tables all) =>
      if path.isEmpty then none
      else match all.reverse with
        | [] => none
        | last :: front => (insert? last path key v).map fun last =>
          t.set name (.tables (last :: front).reverse)

/-- The entries after a change in the table at the end of a path. Tables on the way are made
where there are none, and a list of tables stands for its last one. -/
def update? (change : Entries → Option Entries) : List Text → Entries → Option Entries
  | [], t => change t
  | name :: path, t =>
    match t.find? name with
    | none => (update? change path []).map fun inner => t.set name (.table .implied inner)
    | some (.value _) => none
    | some (.table origin inner) =>
      (update? change path inner).map fun inner => t.set name (.table origin inner)
    | some (.tables all) =>
      match all.reverse with
      | [] => none
      | last :: front => (update? change path last).map fun last =>
        t.set name (.tables (last :: front).reverse)

/-- The entries at the end of a path, if the path leads through tables. -/
def at? : List Text → Entries → Option Entries
  | [], t => some t
  | name :: path, t =>
    match t.find? name with
    | none => some []
    | some (.value _) => none
    | some (.table _ inner) => at? path inner
    | some (.tables all) =>
      match all.getLast? with
      | some last => at? path last
      | none => none

end Entries

mutual

def Entry.toJson : Entry → Json
  | .value v => v
  | .table _ t => .obj (Entry.members t)
  | .tables all => .arr (Entry.objects all)

def Entry.members : List (Text × Entry) → List (Text × Json)
  | [] => []
  | (key, e) :: rest => (key, e.toJson) :: Entry.members rest

def Entry.objects : List (List (Text × Entry)) → List Json
  | [] => []
  | t :: rest => .obj (Entry.members t) :: Entry.objects rest

end

def Entries.toJson (t : Entries) : Json := .obj (Entry.members t)

/-- A header: the names in front of the last one, the last one, and whether it adds to a list of
tables. -/
structure Header where
  path : List Text
  key : Text
  isList : Bool

/-- A document that is being read: what has been finished, and the table that is being filled,
with its header. The table in front of all headers has none. -/
structure Draft where
  done : Entries := []
  current : Entries := []
  header : Option Header := none

namespace Draft

/-- The document with the table that is being filled put in its place. -/
def finish? (d : Draft) : Option Entries :=
  match d.header with
  | none => some d.current
  | some h =>
    Entries.update? (fun parent =>
      if h.isList then
        match parent.find? h.key with
        | none => some (parent.set h.key (.tables [d.current]))
        | some (.tables all) => some (parent.set h.key (.tables (all ++ [d.current])))
        | some _ => none
      else some (parent.set h.key (.table .header d.current))) h.path d.done

/-- The document behind a header. -/
def start? (d : Draft) (h : Header) : Option Draft := do
  let done ← d.finish?
  let parent ← Entries.at? h.path done
  match h.isList, parent.find? h.key with
  | _, none => some ⟨done, [], some h⟩
  | true, some (.tables _) => some ⟨done, [], some h⟩
  | false, some (.table .implied inner) =>
    let done ← Entries.update? (fun parent => some (parent.erase h.key)) h.path done
    return ⟨done, inner, some h⟩
  | _, _ => none

/-- The document behind a line with a key and a value. -/
def insert? (d : Draft) (path : List Text) (key : Text) (v : Json) : Option Draft :=
  (d.current.insert? path key v).map fun current => { d with current := current }

end Draft

end AsmLens.Toml
