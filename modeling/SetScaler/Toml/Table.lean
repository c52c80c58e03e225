import SetScaler.Json.Basic

/-!
Tables under construction. A table may be opened by a header, come into being on the way to another
header, or be built by dotted keys; what may still be added to it depends on that.
-/

namespace SetScaler.Toml

inductive Node where
  | value (json : Json)
  /-- A table. `implicit` tables have no header of their own yet, `dotted` ones were made by a
  dotted key. -/
  | table (implicit dotted : Bool) (entries : List (String × Node))
  /-- An array of tables, each opened by a header of its own. -/
  | tables (items : List (List (String × Node)))

/-- The keys of a table and what they stand for. -/
abbrev Entries := List (String × Node)

mutual

def Node.toJson : Node → Json
  | .value json => json
  | .table _ _ entries => .obj (entriesJson entries)
  | .tables items => .arr (tablesJson items)

def entriesJson : List (String × Node) → List (String × Json)
  | [] => []
  | (key, node) :: rest => (key, node.toJson) :: entriesJson rest

def tablesJson : List (List (String × Node)) → List Json
  | [] => []
  | item :: rest => .obj (entriesJson item) :: tablesJson rest

end

def put (key : String) (node : Node) : Entries → Entries
  | [] => [(key, node)]
  | entry :: rest => if entry.1 = key then (key, node) :: rest else entry :: put key node rest

/-- Changes the last of several tables. -/
def changeLast (change : Entries → Option Entries) : List Entries → Option (List Entries)
  | [] => none
  | [last] => (change last).map fun last => [last]
  | first :: rest => (changeLast change rest).map (first :: ·)

/-- Changes the table that a path leads to, making implicit tables on the way. A way through dotted
keys does not lead into tables that have a header. `here` says whether the table at the start was
made by a dotted key; `change` is told that of the table at the end. -/
def changeAt (dotted : Bool) (change : Bool → Entries → Option Entries) :
    (here : Bool) → List String → Entries → Option Entries
  | here, [], entries => change here entries
  | _, key :: rest, entries =>
    match entries.lookup key with
    | none =>
      (changeAt dotted change dotted rest []).map fun inner =>
        put key (.table true dotted inner) entries
    | some (.value _) => none
    | some (.tables items) =>
      (changeLast (changeAt dotted change false rest) items).map fun items =>
        put key (.tables items) entries
    | some (.table implicit isDotted inner) =>
      if dotted && !implicit then none
      else (changeAt dotted change isDotted rest inner).map fun inner =>
        put key (.table implicit isDotted inner) entries

/-- Adds a value under a key that is reached by dotted keys. A table is made either by dotted keys
or by a header, and no key is given twice. -/
def addValue (path : List String) (key : String) (json : Json) (entries : Entries) :
    Option Entries :=
  changeAt true (fun isDotted entries =>
    if isDotted == path.isEmpty || (entries.lookup key).isSome then none
    else some (put key (.value json) entries)) false path entries

def openTable (path : List String) (key : String) (entries : Entries) : Option Entries :=
  changeAt false (fun _ entries =>
    match entries.lookup key with
    | none => some (put key (.table false false []) entries)
    | some (.table true false inner) => some (put key (.table false false inner) entries)
    | _ => none) false path entries

/-- Opens a further table of an array by its header. -/
def openItem (path : List String) (key : String) (entries : Entries) : Option Entries :=
  changeAt false (fun _ entries =>
    match entries.lookup key with
    | none => some (put key (.tables [[]]) entries)
    | some (.tables items) => some (put key (.tables (items ++ [[]])) entries)
    | _ => none) false path entries

end SetScaler.Toml
