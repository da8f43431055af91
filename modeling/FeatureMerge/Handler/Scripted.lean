import FeatureMerge.Feature.Document
import FeatureMerge.Handler.Basic

/-!
# Scripted handlers

A scripted handler logs its call to the shared log and then runs a list of
actions on the feature at hand, up to the first failure.
-/

namespace FeatureMerge.Handler

/-- Which extensions a scripted handler claims. -/
inductive Claim where
  | every
  | never
  | matching (name kind : Option String)
  deriving DecidableEq, Repr

def Claim.holds : Claim → Extension → Bool
  | every, _ => true
  | never, _ => false
  | matching name kind, e => name.all (· = e.name) && kind.all (· = e.kind.name)

/-- Why a scripted handler fails. -/
inductive Reason where
  | message (text : String)
  /-- The reader of merge algorithms refuses the text. -/
  | policy (text : String)
  | missingProvider
  deriving DecidableEq, Repr

def Reason.failure : Reason → Failure
  | message text => .ofMessage text
  | policy text =>
    match MergeAlgorithm.ofText text with
    | .ok _ => .ofMessage "valid"
    | .error e => .ofError e
  | missingProvider => .ofError .missingFeatureProvider

inductive Action where
  | putVariable (key value : String)
  | configToVariables
  | copy
  | addExtension (e : Extension)
  | removeExtension (name : String)
  | appendText (name text : String)
  | changeId (version : String)
  | locate
  | parseJson
  | fail (reason : Reason) (contexts : List String)

def Place.name : Place → String
  | .unavailable => "unavailable"
  | .unknown => "unknown"
  | .found location => location

/-- The feature with the place of each artifact of the extension as a variable. -/
def locateAll (context : HandlerContext) (f : Feature) (e : Extension) : Feature :=
  e.artifacts.foldl
    (fun f id => f.setVariable id.toColons (Place.name (Place.of context.artifactProvider id))) f

/-- Runs an action on a feature, the extension being the one that the handler was called for. -/
def Action.run (context : HandlerContext) (e : Extension) (f : Feature) :
    Action → Except Failure Feature
  | putVariable key value => .ok (f.setVariable key value)
  | configToVariables =>
    .ok { f with «variables» := f.variables.insertAll context.configuration }
  | copy => .ok (f.addExtension e)
  | addExtension added => .ok (f.addExtension added)
  | removeExtension name => .ok (f.removeExtension name)
  | appendText name text =>
    if (f.extension? name).isSome then .ok (f.modifyExtension name (·.appendText text))
    else .error (.ofMessage s!"no extension '{name}'")
  | changeId version => .ok { f with id := f.id.withVersion version }
  | locate => .ok (locateAll context f e)
  | parseJson =>
    match e.payload with
    | .ok none => .ok (f.setVariable "json" "none")
    | .ok (some v) => .ok (f.setVariable "json" v.write)
    | .error fault => .error (.ofMessage fault.message)
  | fail reason contexts => .error (contexts.foldl Failure.within reason.failure)

/-- Runs actions up to the first failure; the feature keeps what was done before. -/
def runActions (context : HandlerContext) (e : Extension) :
    Feature → List Action → Feature × Option Failure
  | f, [] => (f, none)
  | f, action :: rest =>
    match action.run context e f with
    | .ok f => runActions context e f rest
    | .error failure => (f, some failure)

def scripted (tag : Tag) (name : String) (claim : Claim) (actions : List Action) :
    MergeHandler where
  tag := tag
  name := name
  claims := claim.holds
  merge context target source e :=
    let (feature, failure) := runActions context e target actions
    { feature, failure, log := [⟨.shared, context.invocation name source.id e⟩] }

def postScripted (tag : Tag) (name : String) (actions : List Action) : PostHandler where
  tag := tag
  name := name
  process context f e :=
    let (feature, failure) := runActions context e f actions
    { feature, failure, log := [⟨.shared, context.invocation name f.id e⟩] }

end FeatureMerge.Handler
