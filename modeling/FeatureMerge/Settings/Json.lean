import FeatureMerge.Feature.Document
import FeatureMerge.Settings.Basic

/-!
# Settings as JSON

The same fields as in TOML, in any order; unlike there, the entries of a map
keep the order in which they are written.
-/

namespace FeatureMerge

open Json (Decoded Items Members Outline Value Document misfit)

namespace Blocks

def value (b : Blocks) : Value := .object (b.toList.map fun e => (e.1, e.2.value))

/-- Blocks under the names of their handlers; of equal names the last counts. -/
def decode : Outline → Decoded Blocks
  | .object members => members.fold (fun b name o => return b.set name (← o.properties)) .empty
  | o => o.unexpected "a map"

end Blocks

namespace Settings

def value (s : Settings) : Value :=
  .objectOf [
    s.mergeAlgorithm.map fun m => ("merge-algorithm", .string m.name),
    s.propagation.map fun p => ("configuration-propagation", .string p.name),
    member "variables" s.variables.isEmpty s.variables.value,
    member "framework-properties" s.frameworkProperties.isEmpty s.frameworkProperties.value,
    member "handlers" s.handlers.isEmpty s.handlers.value]

/-- The fields of settings that have been read. -/
structure Fields where
  mergeAlgorithm : Option (Option MergeAlgorithm) := none
  propagation : Option (Option Propagation) := none
  «variables» : Option Properties := none
  frameworkProperties : Option Properties := none
  handlers : Option Blocks := none

namespace Fields

def add (p : Fields) (field : String) (o : Outline) : Decoded Fields := do
  match field with
  | "merge-algorithm" =>
    let m ← Outline.once p.mergeAlgorithm field (Outline.optional MergeAlgorithm.decode) o
    return { p with mergeAlgorithm := m }
  | "configuration-propagation" =>
    let m ← Outline.once p.propagation field (Outline.optional Propagation.decode) o
    return { p with propagation := m }
  | "variables" =>
    return { p with «variables» := ← Outline.once p.variables field Outline.properties o }
  | "framework-properties" =>
    let props ← Outline.once p.frameworkProperties field Outline.properties o
    return { p with frameworkProperties := props }
  | "handlers" => return { p with handlers := ← Outline.once p.handlers field Blocks.decode o }
  | _ => misfit (.unknownField field fieldNames)

def finish (p : Fields) : Settings where
  mergeAlgorithm := p.mergeAlgorithm.getD none
  propagation := p.propagation.getD none
  «variables» := p.variables.getD .empty
  frameworkProperties := p.frameworkProperties.getD .empty
  handlers := p.handlers.getD .empty

end Fields

/-- Reads the fields from an array; any number of them may be missing at its end. -/
def ofItems (items : Items) : Decoded Settings := do
  let (mergeAlgorithm, items) ← items.field none (Outline.optional MergeAlgorithm.decode)
  let (propagation, items) ← items.field none (Outline.optional Propagation.decode)
  let («variables», items) ← items.field .empty Outline.properties
  let (frameworkProperties, items) ← items.field .empty Outline.properties
  let (handlers, items) ← items.field .empty Blocks.decode
  items.finish
  return { mergeAlgorithm, propagation, «variables», frameworkProperties, handlers }

def decode : Outline → Decoded Settings
  | .object members => do return (← members.fold Fields.add {}).finish
  | .array items => ofItems items
  | o => o.unexpected "struct BuilderSettings"

def toJson (s : Settings) : String := s.value.write

def ofJson (s : String) : Decoded Settings := Document.decode decode s

end Settings

end FeatureMerge
