import FeatureMerge.Context.Basic

/-!
# Contexts in words

One-line descriptions of contexts, for diagnostics.
-/

namespace FeatureMerge

open FeatureMerge.Text (quoted)

/-- Texts between brackets, with commas. -/
def bracketed (texts : List String) : String := "[" ++ String.intercalate ", " texts ++ "]"

/-- A name with described fields. -/
def described (name : String) (fields : List String) : String :=
  name ++ " \x7b " ++ String.intercalate ", " fields ++ " \x7d"

def field (name value : String) : String := name ++ ": " ++ value

def flagText (b : Bool) : String := if b then "true" else "false"

def Properties.describe (m : Properties) : String :=
  let entries := m.toList.map fun e => "(" ++ quoted e.1 ++ ", " ++ quoted e.2 ++ ")"
  described "KeyValueMap" [field "entries" (bracketed entries)]

def Blocks.describe (b : Blocks) : String :=
  let entries := b.toList.map fun e => field (quoted e.1) e.2.describe
  "\x7b" ++ String.intercalate ", " entries ++ "\x7d"

def Phase.describe (p : Phase) : String :=
  described "MergePhase" [
    field "prototype" (flagText p.isPrototype),
    field "initial" (flagText p.isInitial)]

def HandlerContext.describe (c : HandlerContext) : String :=
  described "HandlerContext" [
    field "artifact_provider" (flagText c.artifactProvider.isSome),
    field "configuration" c.configuration.describe,
    field "phase" c.phase.describe]

def Registry.describe {α : Type} (r : Registry α) : String := bracketed (r.names.map quoted)

def MergeAlgorithm.describe : MergeAlgorithm → String
  | latest => "Latest"
  | highest => "Highest"

def Propagation.describe : Propagation → String
  | reset => "Reset"
  | carry => "Carry"

/-- The providers themselves have no description. -/
def MergeContext.describe (c : MergeContext) : String :=
  described "BuilderContext" [
    field "artifact_provider" (flagText c.artifactProvider.isSome),
    field "handler_configurations" c.blocks.describe,
    field "merge_handlers" c.mergeHandlers.describe,
    field "post_process_handlers" c.postHandlers.describe,
    field "variables_overwrites" c.variables.describe,
    field "framework_properties_overwrites" c.frameworkProperties.describe,
    field "merge_algorithm" c.mergeAlgorithm.describe,
    field "configuration_propagation" c.propagation.describe,
    ".."]

end FeatureMerge
