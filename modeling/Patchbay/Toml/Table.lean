import Patchbay.Json.Source

/-! TOML values and the tables that keys and headers build up. A table may be extended only in the
way it was begun: by headers, by dotted keys, or not at all. -/

namespace Patchbay

/-- How a table came about: by a header of its own, as part of the path of a header, by dotted keys,
or written inline. -/
inductive Toml.Begun where
  | header
  | implied
  | dotted
  | inline
deriving DecidableEq

/-- A TOML value. `tables` are the tables of double headers. Keys are in the order of their first
use. -/
inductive Toml where
  | string (value : String)
  | integer (value : Int)
  | float (value : Number)
  | boolean (value : Bool)
  | dateTime
  | array (items : List Toml)
  | table (begun : Toml.Begun) (entries : List (String × Toml))
  | tables (items : List Toml)

namespace Toml

abbrev Entries := List (String × Toml)

/-- Stores a value under a key where that key stands, and else behind all others. -/
def place (key : String) (value : Toml) : Entries → Entries
  | [] => [(key, value)]
  | (other, old) :: rest =>
    if key = other then (key, value) :: rest else (other, old) :: place key value rest

/-- Walks along a path of keys and changes the table at its end. Missing tables are begun on the
way; of several tables under one key the last is meant. Dotted keys may not pass through tables that
have a header, and nothing passes through other values. -/
def change {β : Type} (dotted : Bool) (f : Begun → Entries → Option (β × Entries)) :
    List String → Begun → Entries → Option (β × Entries)
  | [], begun, entries => f begun entries
  | key :: path, _, entries =>
    match entries.lookup key with
    | none =>
      let begun := if dotted then .dotted else .implied
      (change dotted f path begun []).map fun (b, inner) =>
        (b, place key (.table begun inner) entries)
    | some (.table begun inner) =>
      if begun = .inline ∨ (dotted ∧ begun = .header) then none
      else (change dotted f path begun inner).map fun (b, inner) =>
        (b, place key (.table begun inner) entries)
    | some (.tables items) =>
      match items.reverse with
      | .table begun inner :: earlier =>
        (change dotted f path begun inner).map fun (b, inner) =>
          (b, place key (.tables (.table begun inner :: earlier).reverse) entries)
      | _ => none
    | some _ => none

/-- Stores a value under a key in the table at the end of a path of dotted keys. The key has to be
new there, and the path has to end in a table of dotted keys. -/
def define (path : List String) (key : String) (value : Toml) (entries : Entries) :
    Option Entries :=
  (change true (fun begun entries =>
    if (path ≠ [] ∧ begun ≠ .dotted) ∨ (entries.lookup key).isSome then none
    else some ((), place key value entries)) path .header entries).map Prod.snd

/-- A document while it is read: the finished tables, and the table whose keys are being read with
its path and whether it belongs to a double header. -/
structure Draft where
  root : Entries := []
  path : List String := []
  double : Bool := false
  current : Entries := []

namespace Draft

/-- Puts the current table into its place. -/
def close (draft : Draft) : Option Entries :=
  match draft.path.reverse with
  | [] => some draft.current
  | key :: parents =>
    let table := Toml.table .header draft.current
    (change false (fun _ entries =>
      match entries.lookup key, draft.double with
      | none, false => some ((), place key table entries)
      | none, true => some ((), place key (.tables [table]) entries)
      | some (.tables items), true => some ((), place key (.tables (items ++ [table])) entries)
      | _, _ => none) parents.reverse .header draft.root).map Prod.snd

/-- Begins the table of a header. A table that so far was only part of paths moves to the end. -/
def openTable (draft : Draft) (path : List String) : Option Draft := do
  let root ← draft.close
  let key ← path.getLast?
  let (current, root) ← change false (fun _ entries =>
    match entries.lookup key with
    | none => some ([], entries)
    | some (.table .implied inner) => some (inner, entries.filter (·.1 ≠ key))
    | some _ => none) path.dropLast .header root
  return { root, path, current }

/-- Begins another table of a double header. -/
def openTables (draft : Draft) (path : List String) : Option Draft := do
  let root ← draft.close
  let key ← path.getLast?
  let ((), root) ← change false (fun _ entries =>
    match entries.lookup key with
    | none => some ((), place key (.tables []) entries)
    | some (.tables _) => some ((), entries)
    | some _ => none) path.dropLast .header root
  return { root, path, double := true }

/-- Adds a key and its value to the current table. -/
def define (draft : Draft) (path : List String) (key : String) (value : Toml) : Option Draft :=
  (Toml.define path key value draft.current).map fun current => { draft with current }

end Draft

/-- An inline table of keys and values. -/
def inlineTable (entries : List ((List String × String) × Toml)) : Option Toml :=
  (entries.foldlM (fun table ((path, key), value) => define path key value table) []).map
    (.table .inline)

mutual

/-- A value as a document to decode. A date counts as a record without any of the fields asked for.
-/
def toSource : Toml → Json.Source
  | string value => .string (some value)
  | integer value => .number (some (.whole value))
  | float value => .number (some (.real value))
  | boolean value => .boolean value
  | dateTime => .object [(.string (some "date-time"), .null)]
  | array items => .array (sourceItems items)
  | table _ entries => .object (sourceMembers entries)
  | tables items => .array (sourceItems items)

def sourceItems : List Toml → List Json.Source
  | [] => []
  | item :: rest => item.toSource :: sourceItems rest

def sourceMembers : List (String × Toml) → List (Json.Source × Json.Source)
  | [] => []
  | (key, value) :: rest => (.string (some key), value.toSource) :: sourceMembers rest

end

end Toml

end Patchbay
