import FeatureMerge.Properties

/-!
# Calls on a map

A map in use is a bare list of entries that calls change one after another. `Entries.put`
and `Entries.remove` look for the position of a key, change the list there and give back
the value that they found. Only what the calls do keeps the keys of the list distinct.
-/

namespace FeatureMerge

namespace Entries

/-- Where the entry of a key stands. -/
def position? (key : String) (entries : List Entry) : Option Nat :=
  entries.findIdx? fun e => e.1 = key

def valueAt? (entries : List Entry) (i : Nat) : Option String := entries[i]?.map Prod.snd

def get? (key : String) (entries : List Entry) : Option String :=
  (position? key entries).bind (valueAt? entries)

/-- Puts a value in the place of the one before, or with its key at the end. -/
def put (key value : String) (entries : List Entry) : Option String × List Entry :=
  match position? key entries with
  | some i => (valueAt? entries i, entries.modify i fun e => (e.1, value))
  | none => (none, entries ++ [(key, value)])

/-- Takes out the entry of a key; those behind it move up. -/
def remove (key : String) (entries : List Entry) : Option String × List Entry :=
  match position? key entries with
  | some i => (valueAt? entries i, entries.eraseIdx i)
  | none => (none, entries)

/-- Puts entries one after another. -/
def putMany (entries more : List Entry) : List Entry :=
  more.foldl (fun es e => (put e.1 e.2 es).2) entries

/-- A call that changes a map. -/
inductive Call where
  | put (key value : String)
  | putAll (source : Properties)
  | remove (key : String)
  | extend (more : List Entry)

/-- What a call answers, and the entries after it. -/
def Call.take : Call → List Entry → Option String × List Entry
  | .put key value, entries => Entries.put key value entries
  | .putAll source, entries => (none, putMany entries source.toList)
  | .remove key, entries => Entries.remove key entries
  | .extend more, entries => (none, putMany entries more)

/-- The entries after several calls. -/
def run (entries : List Entry) (calls : List Call) : List Entry :=
  calls.foldl (fun es call => (call.take es).2) entries

end Entries

end FeatureMerge
