/-!
# Registries

Handlers are registered under names, in the order in which they are to be
called. A name may occur more than once; the first of a name is found.
-/

namespace FeatureMerge

structure Registry (α : Type) where
  entries : List (String × α)

namespace Registry

variable {α : Type}

def empty : Registry α := ⟨[]⟩

def size (r : Registry α) : Nat := r.entries.length

def names (r : Registry α) : List String := r.entries.map Prod.fst

def register (r : Registry α) (name : String) (handler : α) : Registry α :=
  ⟨r.entries ++ [(name, handler)]⟩

def find? (r : Registry α) (name : String) : Option α := r.entries.lookup name

/-- Registers handlers under the names that they have. -/
def addAll (r : Registry α) (name : α → String) (handlers : List α) : Registry α :=
  ⟨r.entries ++ handlers.map fun h => (name h, h)⟩

@[simp] theorem entries_register (r : Registry α) (name : String) (handler : α) :
    (r.register name handler).entries = r.entries ++ [(name, handler)] := rfl

@[simp] theorem entries_addAll (r : Registry α) (name : α → String) (handlers : List α) :
    (r.addAll name handlers).entries = r.entries ++ handlers.map fun h => (name h, h) := rfl

end Registry

end FeatureMerge
