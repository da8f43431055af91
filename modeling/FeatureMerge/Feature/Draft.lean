import FeatureMerge.Feature.Basic

/-!
# Drafts

Features and extensions as somebody wrote them down, ids and names still being
texts. The first part that cannot be read refuses the whole draft.
-/

namespace FeatureMerge

/-- Why a draft or a request is refused. -/
inductive Refusal where
  | build (error : BuildError)
  | document (fault : DocumentFault)
  | noSuchSlot (name : String)
  | noSuchExtension (name : String)
  deriving DecidableEq

namespace Refusal

/-- Reads an id, or says why it is refused. -/
def id (text : String) : Except Refusal ArtifactId := (ArtifactId.ofText text).mapError build

def ids (texts : List String) : Except Refusal (List ArtifactId) := texts.mapM id

/-- One of the known names. -/
def known {α : Type} (ofName? : String → Option α) (names : List String) (text : String) :
    Except Refusal α :=
  match ofName? text with
  | some a => .ok a
  | none => .error (.document (.data (.unknownVariant text names)))

end Refusal

structure ExtensionDraft where
  name : String
  kind : String
  state : Option String := none
  text : Option String := none
  artifacts : List String := []

def ExtensionDraft.extension (d : ExtensionDraft) : Except Refusal Extension := do
  let kind ← Refusal.known ExtensionKind.ofName? (ExtensionKind.all.map (·.name)) d.kind
  let state ← match d.state with
    | none => pure .default
    | some s => Refusal.known ExtensionState.ofName? (ExtensionState.all.map (·.name)) s
  let artifacts ← Refusal.ids d.artifacts
  return { name := d.name, kind, state, text := d.text, artifacts }

structure FeatureDraft where
  id : String
  prototype : Option String := none
  artifacts : List String := []
  «variables» : List Entry := []
  frameworkProperties : List Entry := []
  extensions : List ExtensionDraft := []

def FeatureDraft.feature (d : FeatureDraft) : Except Refusal Feature := do
  let id ← Refusal.id d.id
  let prototype ← d.prototype.mapM Refusal.id
  let artifacts ← Refusal.ids d.artifacts
  let extensions ← d.extensions.mapM ExtensionDraft.extension
  return {
    id, prototype, artifacts
    «variables» := .ofList d.variables
    frameworkProperties := .ofList d.frameworkProperties
    extensions }

end FeatureMerge
