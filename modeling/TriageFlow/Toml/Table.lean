import TriageFlow.Json.Value

/-!
The tables of a TOML document while it is being read. A table may be opened by a header once; a
table that only stands on the way to another may be opened later, or may be filled through dotted
keys, but not both. A finished value is closed.
-/

namespace TriageFlow.Toml

open Json (Value)

/-- What a key of a table stands for. -/
inductive Item where
  | value (value : Value)
  /-- A table; `implied` if no header has opened it, `dotted` if dotted keys have made it. -/
  | table (implied dotted : Bool) (entries : List (String × Item))
  /-- An array of tables, of which the last one is open. -/
  | tables (items : List (List (String × Item)))
deriving Inhabited

/-- The entries of a table, in the order of their keys' first appearance. -/
abbrev Entries := List (String × Item)

namespace Entries

/-- Puts another item under a key that is there. -/
def replace (key : String) (item : Item) (entries : Entries) : Entries :=
  entries.map fun entry => if entry.1 = key then (key, item) else entry

/-- Changes the table at the end of a path; tables on the way are made as needed. The change is
told whether dotted keys have made the table. -/
def descend (byDots : Bool) (change : Bool → Entries → Option Entries) :
    List String → Bool → Entries → Option Entries
  | [], dotted, entries => change dotted entries
  | key :: path, _, entries =>
    match entries.lookup key with
    | none => do
      let below ← descend byDots change path byDots []
      return entries ++ [(key, .table true byDots below)]
    | some (.value _) => none
    | some (.table implied dotted below) =>
      if byDots && !implied then none
      else do
        let below ← descend byDots change path dotted below
        return entries.replace key (.table implied dotted below)
    | some (.tables items) =>
      match items.reverse with
      | [] => none
      | last :: before => do
        let last ← descend byDots change path false last
        return entries.replace key (.tables (before.reverse ++ [last]))

/-- Sets a key, at the end of dotted keys, in a table. A table made by dots takes dotted keys
only, and any other table takes none through itself. -/
def assign (path : List String) (key : String) (v : Value) (entries : Entries) : Option Entries :=
  descend true (fun dotted entries =>
    if dotted == path.isEmpty then none
    else if (entries.lookup key).isSome then none
    else some (entries ++ [(key, .value v)])) path false entries

/-- Opens the table of a header, which is given as the path to its parent and its key. -/
def openTable (path : List String) (key : String) (entries : Entries) : Option Entries :=
  descend false (fun _ entries =>
    match entries.lookup key with
    | none => some (entries ++ [(key, .table false false [])])
    | some (.table true false below) => some (entries.replace key (.table false false below))
    | some _ => none) path false entries

/-- Opens a further table of an array of tables. -/
def openArray (path : List String) (key : String) (entries : Entries) : Option Entries :=
  descend false (fun _ entries =>
    match entries.lookup key with
    | none => some (entries ++ [(key, .tables [[]])])
    | some (.tables items) => some (entries.replace key (.tables (items ++ [[]])))
    | some _ => none) path false entries

/-- Sets a key in the table that the last header has opened. -/
def assignUnder (header path : List String) (key : String) (v : Value) (entries : Entries) :
    Option Entries :=
  descend false (fun _ entries => assign path key v entries) header false entries

end Entries

mutual

/-- The value of an item. -/
def Item.toValue : Item → Value
  | .value v => v
  | .table _ _ entries => .ofMembers (membersOf entries)
  | .tables items => .array (tablesOf items)

/-- The members of a table. -/
def membersOf : List (String × Item) → List (String × Value)
  | [] => []
  | (key, item) :: rest => (key, item.toValue) :: membersOf rest

/-- The tables of an array. -/
def tablesOf : List (List (String × Item)) → List Value
  | [] => []
  | entries :: rest => .ofMembers (membersOf entries) :: tablesOf rest

end

end TriageFlow.Toml
