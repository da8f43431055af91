import FeatureMerge.Feature.Draft
import FeatureMerge.Handler.Scripted

/-!
# Steps of a session

A session works on named slots. Each `Step` makes something and puts it into a
slot, changes a builder, runs a merge, or asks for what is there. Ids are given
as texts.
-/

namespace FeatureMerge.Session

/-- An action of a scripted handler; extensions are still drafts. -/
inductive ActionDraft where
  | ready (action : Handler.Action)
  | addExtension (draft : ExtensionDraft)

def ActionDraft.action : ActionDraft → Except Refusal Handler.Action
  | ready action => .ok action
  | addExtension draft => return .addExtension (← draft.extension)

/-- A change of a builder. Providers and handlers are named by their slots. -/
inductive Change where
  | featureProvider (slot : String)
  | artifactProvider (slot : Option String)
  /-- A provider of the builder's own that knows no feature. -/
  | ownFeatureProvider
  /-- A provider of the builder's own that gives urls. -/
  | ownArtifactProvider
  | «variables» (entries : List Entry)
  | frameworkProperties (entries : List Entry)
  | mergeHandlers (slots : List String)
  | postHandlers (slots : List String)
  | block (name : String) (entries : List Entry)
  | mergeAlgorithm (name : String)
  | propagation (name : String)
  | settings (toml : String)

inductive Step where
  | memoryProvider (slot : String) (features : List FeatureDraft)
  | echoProvider (slot : String)
  | repository (slot root : String) (known : List String)
  | pathRepository (slot : String)
  | recorder (slot name : String) (extensions : List String) (isPrivate : Bool)
  | postRecorder (slot name : String) (isPrivate : Bool)
  | failing (slot name : String)
  | launchpad (slot : String) (name : Option String)
  | tool (slot name : String) (claim : Handler.Claim) (actions : List ActionDraft)
  | privateCalls (handler : String)
  | builder (slot : String)
  | derive (context slot : String)
  | change (builder : String) (change : Change)
  | build (builder slot : String)
  | context (provider : Option String) (slot : String)
  | fork (context provider slot : String)
  /-- A context whose handlers are registered under names of their own choice. -/
  | custom (slot provider : String) (artifacts : Option String) (merge post : List Entry)
      (blocks : List (String × List Entry))
  | look (context : String)
  | describe (context : String)
  | block (context name : String)
  | handlerContext (context name : String) (phase : Phase) (locate : List String)
  | describeHandlerContext (context name : String) (phase : Phase)
  | provide (context id : String)
  | locate (context id : String)
  | requests (provider : String)
  | shares (a b : String)
  | select (context existing candidate : String)
  | feature (slot : String) (draft : FeatureDraft)
  | resolve (context id slot : String)
  | merge (context source target extension : String) (phase : Phase)
  | postProcess (context feature : String) (phase : Phase)

end FeatureMerge.Session
