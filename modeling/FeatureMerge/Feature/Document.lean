import FeatureMerge.Feature.Basic
import FeatureMerge.Json.Decode
import FeatureMerge.Policy

/-!
# Features as JSON

Absent and empty fields are left out when a feature is written. Reading takes
the fields in any order and skips unknown ones; a record may also be an array
of its fields. `Feature.toJson` and `Feature.ofJson` work on whole texts.
-/

namespace FeatureMerge

open Json (Decoded Items Members Outline Value Document misfit)

/-- A text that the reader of a type refuses is a misfit with that reader's message. -/
def readText {α : Type} (read : String → Except BuildError α) (o : Outline) : Decoded α := do
  match read (← o.text) with
  | .ok a => return a
  | .error e => misfit (.refused e.message)

/-- A member that is left out when there is nothing to write. -/
def member (name : String) (isAbsent : Bool) (v : Value) : Option (String × Value) :=
  if isAbsent then none else some (name, v)

def Properties.value (m : Properties) : Value :=
  .object (m.toList.map fun e => (e.1, .string e.2))

namespace ArtifactId

def value (id : ArtifactId) : Value := .string id.toColons

def values (ids : List ArtifactId) : Value := .array (ids.map value)

def decode : Outline → Decoded ArtifactId := readText ofText

def toJson (id : ArtifactId) : String := id.value.write

def ofJson (s : String) : Decoded ArtifactId := Document.decode decode s

end ArtifactId

namespace ExtensionKind

def decode (o : Outline) : Decoded ExtensionKind := do
  let s ← o.variant (all.map name)
  return (ofName? s).getD text

end ExtensionKind

namespace ExtensionState

def decode (o : Outline) : Decoded ExtensionState := do
  let s ← o.variant (all.map name)
  return (ofName? s).getD default

end ExtensionState

namespace Extension

def value (e : Extension) : Value :=
  .objectOf [
    some ("name", .string e.name),
    some ("type", .string e.kind.name),
    some ("state", .string e.state.name),
    e.text.map fun s => ("text", .string s),
    member "artifacts" e.artifacts.isEmpty (ArtifactId.values e.artifacts)]

/-- The fields of an extension that have been read. -/
structure Fields where
  name : Option String := none
  kind : Option ExtensionKind := none
  state : Option ExtensionState := none
  text : Option (Option String) := none
  artifacts : Option (List ArtifactId) := none

namespace Fields

def add (p : Fields) (field : String) (o : Outline) : Decoded Fields := do
  match field with
  | "name" => return { p with name := ← Outline.once p.name field Outline.text o }
  | "type" => return { p with kind := ← Outline.once p.kind field ExtensionKind.decode o }
  | "state" => return { p with state := ← Outline.once p.state field ExtensionState.decode o }
  | "text" =>
    return { p with text := ← Outline.once p.text field (Outline.optional Outline.text) o }
  | "artifacts" =>
    let ids ← Outline.once p.artifacts field (Outline.list ArtifactId.decode) o
    return { p with artifacts := ids }
  | _ =>
    o.skip
    return p

def finish (p : Fields) : Decoded Extension := do
  let some name := p.name | misfit (.missingField "name")
  let some kind := p.kind | misfit (.missingField "type")
  return {
    name, kind
    state := p.state.getD .default
    text := p.text.getD none
    artifacts := p.artifacts.getD [] }

end Fields

/-- Reads the fields from an array. -/
def ofItems (items : Items) : Decoded Extension := do
  let (name, items) ← items.required 0 "struct Extension with 5 elements" Outline.text
  let (kind, items) ← items.required 1 "struct Extension with 5 elements" ExtensionKind.decode
  let (state, items) ← items.field .default ExtensionState.decode
  let (text, items) ← items.field none (Outline.optional Outline.text)
  let (artifacts, items) ← items.field [] (Outline.list ArtifactId.decode)
  items.finish
  return { name, kind, state, text, artifacts }

def decode : Outline → Decoded Extension
  | .object members => do (← members.fold Fields.add {}).finish
  | .array items => ofItems items
  | o => o.unexpected "struct Extension"

def toJson (e : Extension) : String := e.value.write

def ofJson (s : String) : Decoded Extension := Document.decode decode s

/-- The text read as JSON, if there is a text. -/
def payload (e : Extension) : Decoded (Option Value) :=
  match e.text with
  | none => .ok none
  | some s => some <$> Json.Payload.ofText s

end Extension

namespace Feature

def value (f : Feature) : Value :=
  .objectOf [
    some ("id", f.id.value),
    f.prototype.map fun id => ("prototype", id.value),
    member "artifacts" f.artifacts.isEmpty (ArtifactId.values f.artifacts),
    member "variables" f.variables.isEmpty f.variables.value,
    member "framework-properties" f.frameworkProperties.isEmpty f.frameworkProperties.value,
    member "extensions" f.extensions.isEmpty (.array (f.extensions.map Extension.value))]

/-- The fields of a feature that have been read. -/
structure Fields where
  id : Option ArtifactId := none
  prototype : Option (Option ArtifactId) := none
  artifacts : Option (List ArtifactId) := none
  «variables» : Option Properties := none
  frameworkProperties : Option Properties := none
  extensions : Option (List Extension) := none

namespace Fields

def add (p : Fields) (field : String) (o : Outline) : Decoded Fields := do
  match field with
  | "id" => return { p with id := ← Outline.once p.id field ArtifactId.decode o }
  | "prototype" =>
    let id ← Outline.once p.prototype field (Outline.optional ArtifactId.decode) o
    return { p with prototype := id }
  | "artifacts" =>
    let ids ← Outline.once p.artifacts field (Outline.list ArtifactId.decode) o
    return { p with artifacts := ids }
  | "variables" =>
    return { p with «variables» := ← Outline.once p.variables field Outline.properties o }
  | "framework-properties" =>
    let props ← Outline.once p.frameworkProperties field Outline.properties o
    return { p with frameworkProperties := props }
  | "extensions" =>
    let es ← Outline.once p.extensions field (Outline.list Extension.decode) o
    return { p with extensions := es }
  | _ =>
    o.skip
    return p

def finish (p : Fields) : Decoded Feature := do
  let some id := p.id | misfit (.missingField "id")
  return {
    id
    prototype := p.prototype.getD none
    artifacts := p.artifacts.getD []
    «variables» := p.variables.getD .empty
    frameworkProperties := p.frameworkProperties.getD .empty
    extensions := p.extensions.getD [] }

end Fields

/-- Reads the fields from an array. -/
def ofItems (items : Items) : Decoded Feature := do
  let (id, items) ← items.required 0 "struct Feature with 6 elements" ArtifactId.decode
  let (prototype, items) ← items.field none (Outline.optional ArtifactId.decode)
  let (artifacts, items) ← items.field [] (Outline.list ArtifactId.decode)
  let («variables», items) ← items.field .empty Outline.properties
  let (frameworkProperties, items) ← items.field .empty Outline.properties
  let (extensions, items) ← items.field [] (Outline.list Extension.decode)
  items.finish
  return { id, prototype, artifacts, «variables», frameworkProperties, extensions }

def decode : Outline → Decoded Feature
  | .object members => do (← members.fold Fields.add {}).finish
  | .array items => ofItems items
  | o => o.unexpected "struct Feature"

def toJson (f : Feature) : String := f.value.write

def ofJson (s : String) : Decoded Feature := Document.decode decode s

end Feature

def Properties.toJson (m : Properties) : String := m.value.write

def Properties.ofJson (s : String) : Decoded Properties :=
  Document.decode Outline.properties s

def MergeAlgorithm.decode : Outline → Decoded MergeAlgorithm := readText ofText

def Propagation.decode : Outline → Decoded Propagation := readText ofText

end FeatureMerge
