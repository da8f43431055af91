import FeatureMerge.Settings.Basic
import FeatureMerge.Toml.Reader
import FeatureMerge.Toml.Writer

/-!
# Settings as TOML

`Settings.ofTable` says which tables are settings, `Settings.ofToml` reads a
text, `Settings.toToml` writes one. What is absent is not written.
-/

namespace FeatureMerge

namespace Toml.Value

def text : Value → Except Misfit String
  | string s => .ok s
  | v => .error (v.misfit "a string")

/-- The name of a policy. -/
def policy {α : Type} (read : String → Except BuildError α) (v : Value) : Except Misfit α := do
  (read (← v.text)).mapError fun e => .refused e.message

/-- A table of texts. -/
def properties (v : Value) : Except Misfit Properties :=
  match v.entries? with
  | some entries => entries.foldlM (fun m e => return m.insert e.1 (← e.2.text)) .empty
  | none => .error (v.misfit "a map of string keys to string values")

/-- A table of tables of texts. -/
def blocks (v : Value) : Except Misfit Blocks :=
  match v.entries? with
  | some entries => entries.foldlM (fun b e => return b.set e.1 (← e.2.properties)) .empty
  | none => .error (v.misfit "a map")

end Toml.Value

namespace Settings

/-- The settings with one more field of a document. -/
def addField (s : Settings) (name : String) (v : Toml.Value) : Except Misfit Settings := do
  match name with
  | "merge-algorithm" =>
    return { s with mergeAlgorithm := some (← v.policy MergeAlgorithm.ofText) }
  | "configuration-propagation" =>
    return { s with propagation := some (← v.policy Propagation.ofText) }
  | "variables" => return { s with «variables» := ← v.properties }
  | "framework-properties" => return { s with frameworkProperties := ← v.properties }
  | "handlers" => return { s with handlers := ← v.blocks }
  | _ => .error (.unknownField name fieldNames)

/-- The settings that a table describes. -/
def ofTable (table : Toml.Table) : Except Misfit Settings :=
  table.foldlM (fun s e => s.addField e.1 e.2) empty

/-- The fault of a table that does not describe settings. A table that is not representable either
is no better than a malformed document. -/
def fault (table : Toml.Table) (m : Misfit) : DocumentFault :=
  if Toml.Value.Table.isRepresentable table then .data m else .malformed

/-- Reads settings from a document. -/
def ofToml (text : String) : Except BuildError Settings :=
  match Toml.Table.read text with
  | none => .error (.invalidSettings .malformed)
  | some table => (ofTable table).mapError fun m => .invalidSettings (fault table m)

/-- The lines of the policies that are set. -/
def policyLines (s : Settings) : List Char :=
  let line (name : String) (value : Option String) :=
    (value.map (Toml.Writer.assignment name)).getD []
  line "merge-algorithm" (s.mergeAlgorithm.map (·.name))
    ++ line "configuration-propagation" (s.propagation.map (·.name))

/-- A table that is left out when it is empty. -/
def propertyTable (name : String) (m : Properties) : List Char :=
  if m.isEmpty then [] else Toml.Writer.table [name] m.toList

/-- Writes settings as a document. -/
def toToml (s : Settings) : String :=
  String.ofList <| Toml.Writer.document <|
    [s.policyLines, propertyTable "variables" s.variables,
      propertyTable "framework-properties" s.frameworkProperties]
    ++ s.handlers.toList.map fun e => Toml.Writer.table ["handlers", e.1] e.2.toList

end Settings

end FeatureMerge
