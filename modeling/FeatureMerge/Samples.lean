import FeatureMerge.Feature.Basic

/-!
# Samples

Small features and settings documents to try things out with.
-/

namespace FeatureMerge.Samples

/-- A text that should be an artifact id but is none, and why. -/
structure BadId where
  text : String
  error : BuildError

def BadId.message (b : BadId) : String :=
  s!"invalid fixture artifact id '{b.text}': {b.error.message}"

def artifact (text : String) : Except BadId ArtifactId :=
  (ArtifactId.ofText text).mapError (BadId.mk text)

/-- A feature with nothing but an id. -/
def bare (id : String) : Except BadId Feature := Feature.bare <$> artifact id

/-- A feature with one extension that holds a text. -/
def withText (id extension text : String) : Except BadId Feature := do
  return (← bare id).addExtension { name := extension, kind := .text, text := some text }

/-- A feature with one extension that holds artifacts. -/
def withArtifacts (id extension : String) (artifacts : List String) : Except BadId Feature := do
  let f ← bare id
  let artifacts ← artifacts.mapM artifact
  return f.addExtension { name := extension, kind := .artifacts, artifacts }

/-- A settings document under a name. -/
structure SettingsSample where
  name : String
  content : String

/-- Every field is set. -/
def complete : SettingsSample where
  name := "complete"
  content := String.intercalate "\n" [
    "merge-algorithm = \"latest\"",
    "configuration-propagation = \"carry\"",
    "",
    "[variables]",
    "\"java.version\" = \"17\"",
    "\"sling.home\" = \"/opt/sling\"",
    "",
    "[framework-properties]",
    "\"org.osgi.framework.bootdelegation\" = \"sun.*\"",
    "",
    "[handlers.launchpad]",
    "mode = \"strict\"",
    "",
    "[handlers.repoinit]",
    "separator = \"\\n\\n\""]

/-- Only a handler block is set. -/
def handlersOnly : SettingsSample where
  name := "handlers_only"
  content := "[handlers.launchpad]\nmode = \"lenient\""

/-- A field that settings do not have. -/
def unknownKey : SettingsSample where
  name := "unknown_key"
  content := "merge-strategy = \"latest\""

/-- A text that is no document. -/
def invalidText : SettingsSample where
  name := "invalid_syntax"
  content := "[handlers.launchpad\nmode = \"strict\""

def all : List SettingsSample := [complete, handlersOnly, unknownKey, invalidText]

def find? (name : String) : Option SettingsSample := all.find? (·.name = name)

end FeatureMerge.Samples
