import FeatureMerge.Toml.Value

/-!
# Tables under construction

Headers and assignments build a tree of tables step by step. The tree
remembers how each table came about, because that decides what may still be
added to it: a table is opened by one header only, and a dotted key adds only to
a table that dotted keys began.
-/

namespace FeatureMerge.Toml

/-- How a table came about: by its header, by the header of a table within it, or by dotted keys. -/
inductive Origin where
  | opened
  | implied
  | dotted
  deriving DecidableEq, Repr

/-- An entry under construction. Of an array of tables only the last is still open. -/
inductive Tree where
  | value (v : Value)
  | table (origin : Origin) (entries : List (String × Tree))
  | tables (before : List Value) (last : List (String × Tree))

namespace Tree

/-- The open entries of a table. -/
abbrev Entries := List (String × Tree)

mutual

/-- The value that the entry amounts to. -/
def finish : Tree → Value
  | value v => v
  | table _ entries => .table (finishEntries entries)
  | tables before last => .array (before ++ [.table (finishEntries last)])

def finishEntries : List (String × Tree) → Table
  | [] => []
  | (key, tree) :: rest => (key, tree.finish) :: finishEntries rest

end

/-- Goes down the path of a header, through the last table of each array, and changes the table at
its end. Tables that are missing are implied. -/
def within (change : Entries → Option Entries) : List String → Entries → Option Entries
  | [], entries => change entries
  | key :: path, entries => do
    let tree ← match entries.lookup key with
      | none => (within change path []).map (table .implied)
      | some (table origin inner) => (within change path inner).map (table origin)
      | some (tables before last) => (within change path last).map (tables before)
      | some (value _) => none
    return Ascending.insert key tree entries

/-- Opens a table with a header. -/
def openTable (key : String) (entries : Entries) : Option Entries :=
  match entries.lookup key with
  | none => some (Ascending.insert key (table .opened []) entries)
  | some (table .implied inner) => some (Ascending.insert key (table .opened inner) entries)
  | some _ => none

/-- Adds a table to an array of tables. -/
def appendTable (key : String) (entries : Entries) : Option Entries :=
  match entries.lookup key with
  | none => some (Ascending.insert key (tables [] []) entries)
  | some (tables before last) =>
    some (Ascending.insert key (tables (before ++ [.table (finishEntries last)]) []) entries)
  | some _ => none

/-- Assigns a value to a dotted key. Its path may lead through implied tables and the last tables
of arrays, but ends in a table that dotted keys began. -/
def assign (v : Value) : List String → Entries → Option Entries
  | [], _ => none
  | [key], entries =>
    match entries.lookup key with
    | none => some (Ascending.insert key (value v) entries)
    | some _ => none
  | key :: path, entries => do
    let tree ← match entries.lookup key with
      | none => (assign v path []).map (table .dotted)
      | some (table .dotted inner) => (assign v path inner).map (table .dotted)
      | some (table .implied inner) =>
        if path.length = 1 then none else (assign v path inner).map (table .implied)
      | some (tables before last) =>
        if path.length = 1 then none else (assign v path last).map (tables before)
      | some (table .opened _) | some (value _) => none
    return Ascending.insert key tree entries

/-- The table of a list of assignments. -/
def ofAssignments (assignments : List (List String × Value)) : Option Table :=
  (assignments.foldlM (fun entries a => assign a.2 a.1 entries) []).map finishEntries

end Tree

end FeatureMerge.Toml
