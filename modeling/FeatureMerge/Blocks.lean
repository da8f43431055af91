import FeatureMerge.Ascending
import FeatureMerge.Properties

/-!
# Handler blocks

A handler is configured by one block of properties under its name. `Blocks`
holds the blocks of all handlers, in ascending order of the names. Setting a
block replaces the one before; the two are not merged.
-/

namespace FeatureMerge

structure Blocks where
  toList : List (String × Properties)
  ascending : Ascending.IsAscending toList
  deriving DecidableEq

namespace Blocks

def empty : Blocks := ⟨[], Ascending.isAscending_nil⟩

instance : Inhabited Blocks := ⟨empty⟩

def size (b : Blocks) : Nat := b.toList.length

def isEmpty (b : Blocks) : Bool := b.toList.isEmpty

def get? (b : Blocks) (name : String) : Option Properties := b.toList.lookup name

def set (b : Blocks) (name : String) (block : Properties) : Blocks :=
  ⟨Ascending.insert name block b.toList, b.ascending.insert name block⟩

/-- Sets blocks one after another. -/
def setMany (b : Blocks) (blocks : List (String × Properties)) : Blocks :=
  blocks.foldl (fun b e => b.set e.1 e.2) b

/-- Sets all blocks of `source`. -/
def setAll (b source : Blocks) : Blocks := b.setMany source.toList

def ofList (blocks : List (String × Properties)) : Blocks := empty.setMany blocks

@[simp] theorem toList_set (b : Blocks) (name : String) (block : Properties) :
    (b.set name block).toList = Ascending.insert name block b.toList := rfl

theorem get?_set (b : Blocks) (name k : String) (block : Properties) :
    (b.set name block).get? k = if k = name then some block else b.get? k :=
  Ascending.lookup_insert name k block b.toList

end Blocks

end FeatureMerge
