import FeatureMerge.Artifact.Text
import FeatureMerge.Properties

/-!
# Features

A feature is a modular descriptor: artifacts, variables, framework properties
and named extensions. Extensions are blocks whose content only handlers
understand.
-/

namespace FeatureMerge

/-- The kind of content that an extension holds. -/
inductive ExtensionKind where
  | text
  | json
  | artifacts
  deriving DecidableEq, Repr

namespace ExtensionKind

def name : ExtensionKind → String
  | text => "text"
  | json => "json"
  | artifacts => "artifacts"

def all : List ExtensionKind := [text, json, artifacts]

def ofName? (s : String) : Option ExtensionKind := all.find? (·.name = s)

theorem ofName?_name (k : ExtensionKind) : ofName? k.name = some k := by
  cases k <;> simp [ofName?, all, name]

end ExtensionKind

/-- How a consumer treats an extension that it does not understand. -/
inductive ExtensionState where
  | required
  | optional
  | transient
  deriving DecidableEq, Repr

namespace ExtensionState

def default : ExtensionState := optional

def name : ExtensionState → String
  | required => "required"
  | optional => "optional"
  | transient => "transient"

def all : List ExtensionState := [required, optional, transient]

def ofName? (s : String) : Option ExtensionState := all.find? (·.name = s)

theorem ofName?_name (s : ExtensionState) : ofName? s.name = some s := by
  cases s <;> simp [ofName?, all, name]

end ExtensionState

/-- A named block within a feature. -/
structure Extension where
  name : String
  kind : ExtensionKind
  state : ExtensionState := .default
  text : Option String := none
  artifacts : List ArtifactId := []
  deriving DecidableEq

structure Feature where
  id : ArtifactId
  /-- The feature whose content is folded in before this one is merged. -/
  prototype : Option ArtifactId := none
  artifacts : List ArtifactId := []
  «variables» : Properties := .empty
  frameworkProperties : Properties := .empty
  extensions : List Extension := []
  deriving DecidableEq

namespace Feature

/-- A feature with nothing but an id. -/
def bare (id : ArtifactId) : Feature := { id }

/-- The first extension of that name. -/
def extension? (f : Feature) (name : String) : Option Extension :=
  f.extensions.find? (·.name = name)

/-- Changes the first extension of that name, if there is one. -/
def modifyExtension (f : Feature) (name : String) (change : Extension → Extension) : Feature :=
  { f with extensions := go f.extensions }
where
  go : List Extension → List Extension
    | [] => []
    | e :: es => if e.name = name then change e :: es else e :: go es

def addExtension (f : Feature) (e : Extension) : Feature :=
  { f with extensions := f.extensions ++ [e] }

/-- Drops all extensions of that name. -/
def removeExtension (f : Feature) (name : String) : Feature :=
  { f with extensions := f.extensions.filter (·.name ≠ name) }

def setVariable (f : Feature) (key value : String) : Feature :=
  { f with «variables» := f.variables.insert key value }

end Feature

/-- The extension with text at the end of its own; a missing text counts as empty. -/
def Extension.appendText (e : Extension) (suffix : String) : Extension :=
  { e with text := some (e.text.getD "" ++ suffix) }

end FeatureMerge
