/-!
# Ordered properties

A `Properties` map holds texts under distinct keys, in the order in which the
keys were first inserted. Variables, framework properties and handler blocks
are such maps. `insertAll` layers one map over another: its values win, and
keys that it brings come last.
-/

namespace FeatureMerge

/-- A text under a key. -/
abbrev Entry := String × String

namespace Entries

/-- The entries with a value replaced in place, or a new entry at the end. -/
def insert (key value : String) : List Entry → List Entry
  | [] => [(key, value)]
  | (k, v) :: rest => if k = key then (k, value) :: rest else (k, v) :: insert key value rest

def erase (key : String) (entries : List Entry) : List Entry :=
  entries.filter fun e => e.1 ≠ key

theorem keys_insert (key value : String) (entries : List Entry) :
    (insert key value entries).map Prod.fst =
      if key ∈ entries.map Prod.fst then entries.map Prod.fst
      else entries.map Prod.fst ++ [key] := by
  induction entries with
  | nil => simp [insert]
  | cons e rest ih => grind [insert]

theorem nodup_keys_insert {entries : List Entry} (h : (entries.map Prod.fst).Nodup)
    (key value : String) : ((insert key value entries).map Prod.fst).Nodup := by
  rw [keys_insert]
  split
  · exact h
  · rename_i hk
    exact List.nodup_append.2 ⟨h, by simp, by grind⟩

theorem nodup_keys_erase {entries : List Entry} (h : (entries.map Prod.fst).Nodup)
    (key : String) : ((erase key entries).map Prod.fst).Nodup :=
  h.sublist (List.filter_sublist.map Prod.fst)

theorem lookup_insert (key k value : String) (entries : List Entry) :
    (insert key value entries).lookup k =
      if k = key then some value else entries.lookup k := by
  induction entries with
  | nil => grind [insert]
  | cons e rest ih => grind [insert]

theorem lookup_erase (key k : String) (entries : List Entry) :
    (erase key entries).lookup k = if k = key then none else entries.lookup k := by
  induction entries with
  | nil => simp [erase]
  | cons e rest ih => grind [erase]

end Entries

/-- An insertion-ordered map from texts to texts. -/
structure Properties where
  toList : List Entry
  nodup_keys : (toList.map Prod.fst).Nodup
  deriving DecidableEq

namespace Properties

def empty : Properties := ⟨[], by simp⟩

instance : Inhabited Properties := ⟨empty⟩

def keys (m : Properties) : List String := m.toList.map Prod.fst

def size (m : Properties) : Nat := m.toList.length

def isEmpty (m : Properties) : Bool := m.toList.isEmpty

def get? (m : Properties) (key : String) : Option String := m.toList.lookup key

def contains (m : Properties) (key : String) : Bool := (m.get? key).isSome

def insert (m : Properties) (key value : String) : Properties :=
  ⟨Entries.insert key value m.toList, Entries.nodup_keys_insert m.nodup_keys key value⟩

def erase (m : Properties) (key : String) : Properties :=
  ⟨Entries.erase key m.toList, Entries.nodup_keys_erase m.nodup_keys key⟩

/-- Inserts entries one after another. -/
def insertMany (m : Properties) (entries : List Entry) : Properties :=
  entries.foldl (fun m e => m.insert e.1 e.2) m

/-- Layers `source` over `m`. -/
def insertAll (m source : Properties) : Properties := m.insertMany source.toList

def ofList (entries : List Entry) : Properties := empty.insertMany entries

@[simp] theorem toList_insert (m : Properties) (key value : String) :
    (m.insert key value).toList = Entries.insert key value m.toList := rfl

@[simp] theorem toList_erase (m : Properties) (key : String) :
    (m.erase key).toList = Entries.erase key m.toList := rfl

theorem keys_insert (m : Properties) (key value : String) :
    (m.insert key value).keys = if key ∈ m.keys then m.keys else m.keys ++ [key] :=
  Entries.keys_insert key value m.toList

theorem get?_insert (m : Properties) (key value k : String) :
    (m.insert key value).get? k = if k = key then some value else m.get? k :=
  Entries.lookup_insert key k value m.toList

theorem get?_erase (m : Properties) (key k : String) :
    (m.erase key).get? k = if k = key then none else m.get? k :=
  Entries.lookup_erase key k m.toList

@[simp] theorem insertMany_nil (m : Properties) : m.insertMany [] = m := rfl

@[simp] theorem insertMany_cons (m : Properties) (e : Entry) (entries : List Entry) :
    m.insertMany (e :: entries) = (m.insert e.1 e.2).insertMany entries := rfl

theorem insertMany_append (m : Properties) (as bs : List Entry) :
    m.insertMany (as ++ bs) = (m.insertMany as).insertMany bs := by
  simp [insertMany]

end Properties

end FeatureMerge
