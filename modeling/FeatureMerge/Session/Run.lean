import FeatureMerge.Context.Text
import FeatureMerge.Handler.Failing
import FeatureMerge.Handler.Launchpad
import FeatureMerge.Handler.Recording
import FeatureMerge.Session.State
import FeatureMerge.Session.Step
import FeatureMerge.Settings.Toml

/-!
# Running sessions

`State.take` takes a step: it gives the new state, the reply and the trace
events. `run` takes all steps of a session. A refused step changes nothing,
except that `build` uses its builder up in any case.
-/

namespace FeatureMerge.Session

/-- Which instances two contexts share. Handlers are compared by the names of the first context. -/
structure Sharing where
  featureProvider : Bool
  artifactProvider : Bool
  mergeHandlers : List Bool
  postHandlers : List Bool

/-- Whether two instances are there and are the same. -/
def isSameTag (a b : Option Tag) : Bool := a.isSome && a = b

def Sharing.of (a b : MergeSource) : Sharing where
  featureProvider := a.featureProvider.tag = b.featureProvider.tag
  artifactProvider :=
    isSameTag (a.artifactProvider.map (·.tag)) (b.artifactProvider.map (·.tag))
  mergeHandlers := a.mergeHandlers.names.map fun name =>
    isSameTag ((a.mergeHandlers.find? name).map (·.tag)) ((b.mergeHandlers.find? name).map (·.tag))
  postHandlers := a.postHandlers.names.map fun name =>
    isSameTag ((a.postHandlers.find? name).map (·.tag)) ((b.postHandlers.find? name).map (·.tag))

/-- What a step answers. -/
inductive Reply where
  | done
  | context (c : AnyContext)
  | feature (f : Option Feature)
  | merged (r : MergeResult)
  | processed (p : Pass)
  | block (m : Option Properties)
  | handlerContext (c : HandlerContext) (located : List Place)
  | text (s : String)
  | place (p : Place)
  | id (id : ArtifactId)
  | ids (ids : List ArtifactId)
  | calls (calls : List Invocation)
  | sharing (s : Sharing)

/-- The end of a step. -/
structure Effect where
  state : State
  reply : Except Refusal Reply
  events : List Trace.Event := []

namespace Effect

/-- A step that worked. -/
def ok (s : State) (reply : Reply) (events : List Trace.Event := []) : Effect :=
  { state := s, reply := .ok reply, events }

/-- A refused step changes nothing. -/
def ofExcept (s : State) : Except Refusal Effect → Effect
  | .ok e => e
  | .error r => { state := s, reply := .error r }

end Effect

namespace Change

/-- The operations that a change of a builder amounts to, and what is reported beside those of the
operations themselves. -/
def operations (s : State) : Change → Except Refusal (List Operation × List Trace.Event)
  | featureProvider slot => return ([.featureProvider (← s.providers.get slot)], [])
  | artifactProvider none => return ([.artifactProvider none], [])
  | artifactProvider (some slot) =>
    return ([.artifactProvider (some (← s.artifactProviders.get slot))], [])
  | ownFeatureProvider => return ([.featureProvider (.none s.nextTag)], [])
  | ownArtifactProvider => return ([.artifactProvider (some (.urls s.nextTag))], [])
  | «variables» entries => return ([.«variables» (.ofList entries)], [])
  | frameworkProperties entries => return ([.frameworkProperties (.ofList entries)], [])
  | mergeHandlers slots => return ([.mergeHandlers (← slots.mapM s.mergeHandlers.get)], [])
  | postHandlers slots => return ([.postHandlers (← slots.mapM s.postHandlers.get)], [])
  | block name entries => return ([.block name (.ofList entries)], [])
  | mergeAlgorithm name =>
    return ([.mergeAlgorithm (← (MergeAlgorithm.ofText name).mapError .build)], [])
  | propagation name => return ([.propagation (← (Propagation.ofText name).mapError .build)], [])
  | settings toml => do
    let settings ← (Settings.ofToml toml).mapError .build
    return (settings.operations, [Trace.settings settings])

end Change

namespace State

/-! ## Making things -/

def putProvider (s : State) (slot : String) (p : FeatureProvider) (isMemory : Bool) : Effect :=
  let memories := s.memories.remove slot
  .ok { s.tagged with
    providers := s.providers.put slot p
    memories := if isMemory then memories.put slot p.tag else memories } .done

def putArtifactProvider (s : State) (slot : String) (p : ArtifactProvider) : Effect :=
  .ok { s.tagged with artifactProviders := s.artifactProviders.put slot p } .done

/-- Puts a handler into the slots of its kinds. -/
def putHandler (s : State) (slot : String) (merge : Option MergeHandler)
    (post : Option PostHandler) (isPrivate : Bool) : Effect :=
  let diaries := s.diaries.remove slot
  .ok { s.tagged with
    mergeHandlers := merge.elim s.mergeHandlers (s.mergeHandlers.put slot)
    postHandlers := post.elim s.postHandlers (s.postHandlers.put slot)
    diaries := if isPrivate then diaries.put slot s.nextTag else diaries } .done

/-- The log of the handler that is made next. -/
def newLog (s : State) (isPrivate : Bool) : LogId := if isPrivate then .own s.nextTag else .shared

def putContext (s : State) (slot : String) (c : AnyContext) (events : List Trace.Event) : Effect :=
  .ok { s with contexts := s.contexts.put slot c } (.context c) events

/-- Changes a builder; its operations report themselves. -/
def changeBuilder (s : State) (builder : String) (change : Change) : Except Refusal Effect := do
  let b ← s.builders.get builder
  let (operations, events) ← change.operations s
  return .ok { s.tagged with builders := s.builders.put builder (b.run operations) } .done
    (events ++ operations.flatMap Trace.operation)

/-- Builds a context and uses the builder up. -/
def buildContext (s : State) (builder slot : String) : Except Refusal Effect := do
  let b ← s.builders.get builder
  let rest := { s with builders := s.builders.remove builder }
  match b.build with
  | .ok c => return putContext rest slot (.built c) []
  | .error e => return { state := rest, reply := .error (.build e) }

/-- Handlers under names of somebody's choice. -/
def registryOf {α : Type} (slots : Slots α) (entries : List Entry) :
    Except Refusal (Registry α) :=
  entries.foldlM (fun r e => return r.register e.1 (← slots.get e.2)) .empty

def customContext (s : State) (provider : String) (artifacts : Option String)
    (merge post : List Entry) (blocks : List (String × List Entry)) :
    Except Refusal MergeSource := do
  let featureProvider ← s.providers.get provider
  let artifactProvider ← artifacts.mapM s.artifactProviders.get
  let mergeHandlers ← registryOf s.mergeHandlers merge
  let postHandlers ← registryOf s.postHandlers post
  return {
    featureProvider, artifactProvider, mergeHandlers, postHandlers
    blocks := .ofList (blocks.map fun b => (b.1, .ofList b.2)) }

/-! ## Merging -/

/-- Asks the provider of a context for a feature. -/
def askProvider (s : State) (context id : String) :
    Except Refusal (State × Option Feature) := do
  let c ← s.source context
  let id ← Refusal.id id
  return (s.noteRequest c.featureProvider id, c.featureProvider.provide id)

def mergeFeatures (s : State) (context sourceSlot targetSlot extension : String) (phase : Phase) :
    Except Refusal Effect := do
  let c ← s.source context
  let source ← s.features.get sourceSlot
  let target ← s.features.get targetSlot
  let some e := source.extension? extension | .error (.noSuchExtension extension)
  let r := mergeExtension c phase target source e
  return .ok { s with features := s.features.put targetSlot r.target, log := s.log ++ r.log }
    (.merged r) [Trace.merge c phase target source e]

def processFeature (s : State) (context feature : String) (phase : Phase) :
    Except Refusal Effect := do
  let c ← s.source context
  let p := postProcess c phase (← s.features.get feature)
  return .ok { s with features := s.features.put feature p.feature, log := s.log ++ p.log }
    (.processed p) (p.calls.map Trace.call)

end State

/-! ## Steps -/

/-- Takes a step, or says why it is refused. -/
def State.take? (s : State) : Step → Except Refusal Effect
  | .memoryProvider slot drafts => do
    let features ← drafts.mapM FeatureDraft.feature
    return s.putProvider slot (.ofList s.nextTag features) true
  | .echoProvider slot => return s.putProvider slot (.echo s.nextTag) false
  | .repository slot root known => do
    return s.putArtifactProvider slot (.repository s.nextTag root (← Refusal.ids known))
  | .pathRepository slot =>
    return s.putArtifactProvider slot (.everything s.nextTag "file:///repo")
  | .recorder slot name extensions isPrivate =>
    let h := Handler.recorder s.nextTag name extensions (s.newLog isPrivate)
    return s.putHandler slot (some h) none isPrivate
  | .postRecorder slot name isPrivate =>
    let h := Handler.postRecorder s.nextTag name (s.newLog isPrivate)
    return s.putHandler slot none (some h) isPrivate
  | .failing slot name =>
    return s.putHandler slot (some (Handler.failing s.nextTag name))
      (some (Handler.postFailing s.nextTag name)) false
  | .launchpad slot name =>
    let h := Handler.launchpad s.nextTag (name.getD Handler.launchpadName)
    return s.putHandler slot (some h) none false
  | .tool slot name claim drafts => do
    let actions ← drafts.mapM ActionDraft.action
    return s.putHandler slot (some (Handler.scripted s.nextTag name claim actions))
      (some (Handler.postScripted s.nextTag name actions)) false
  | .privateCalls handler => do return .ok s (.calls (s.callsOf (← s.diaries.get handler)))
  | .builder slot => return .ok { s with builders := s.builders.put slot .fresh } .done
  | .derive context slot => do
    let c ← s.builtContext context
    return .ok { s with builders := s.builders.put slot c.derive } .done [Trace.derive c]
  | .change builder change => s.changeBuilder builder change
  | .build builder slot => s.buildContext builder slot
  | .context provider slot => do
    let p ← provider.mapM s.providers.get
    let c ← (MergeContext.make p).mapError .build
    return s.putContext slot (.built c) []
  | .fork context provider slot => do
    let p ← s.providers.get provider
    let c ← s.builtContext context
    return s.putContext slot (.built (c.fork p)) [Trace.derive c]
  | .custom slot provider artifacts merge post blocks => do
    let c ← s.customContext provider artifacts merge post blocks
    return s.putContext slot (.custom c) []
  | .look context => do return .ok s (.context (← s.contexts.get context))
  | .describe context => do return .ok s (.text (← s.builtContext context).describe)
  | .block context name => do return .ok s (.block ((← s.source context).blocks.get? name))
  | .handlerContext context name phase locate => do
    let c ← s.source context
    let ids ← Refusal.ids locate
    return .ok s (.handlerContext (c.handlerContext name phase) (ids.map c.locate))
  | .describeHandlerContext context name phase => do
    return .ok s (.text ((← s.source context).handlerContext name phase).describe)
  | .provide context id => do
    let (s, f) ← s.askProvider context id
    return .ok s (.feature f)
  | .locate context id => do
    let c ← s.source context
    return .ok s (.place (c.locate (← Refusal.id id)))
  | .requests provider => do return .ok s (.ids (s.requestsOf (← s.memories.get provider)))
  | .shares a b => do return .ok s (.sharing (Sharing.of (← s.source a) (← s.source b)))
  | .select context existing candidate => do
    let c ← s.source context
    let existing ← Refusal.id existing
    return .ok s (.id (c.mergeAlgorithm.select existing (← Refusal.id candidate)))
  | .feature slot draft => do
    let f ← draft.feature
    return .ok { s with features := s.features.put slot f } (.feature (some f))
  | .resolve context id slot => do
    let (s, f) ← s.askProvider context id
    return .ok { s with features := f.elim s.features (s.features.put slot) } (.feature f)
  | .merge context source target extension phase =>
    s.mergeFeatures context source target extension phase
  | .postProcess context feature phase => s.processFeature context feature phase

def State.take (s : State) (step : Step) : Effect := .ofExcept s (s.take? step)

/-- What a session shows of a step. -/
structure Answer where
  reply : Except Refusal Reply
  calls : List Invocation
  events : List Trace.Event

/-- Takes steps one after another. -/
def run (s : State) : List Step → List Answer
  | [] => []
  | step :: steps =>
    let e := s.take step
    ⟨e.reply, e.state.sharedCallsFrom s.log.length, e.events⟩ :: run e.state steps

end FeatureMerge.Session
