import FeatureMerge.Provider
import FeatureMerge.Report

/-!
# Handlers

Handlers understand extensions. A `MergeHandler` merges the extensions that it
claims into a target, a `PostHandler` runs over every extension of a feature.
A call gets a `HandlerContext` and ends in an `Outcome`: the feature as the
handler leaves it, what it logged, and its failure if there is one.
-/

namespace FeatureMerge

/-- Where in a merge a handler is called. -/
structure Phase where
  /-- A prototype is folded into the feature that names it. -/
  isPrototype : Bool
  /-- The feature is the first one of an empty result. -/
  isInitial : Bool
  deriving DecidableEq, Repr

namespace Phase

def initial : Phase := ⟨false, true⟩

def subsequent : Phase := ⟨false, false⟩

def prototype (isInitial : Bool) : Phase := ⟨true, isInitial⟩

end Phase

/-- What a handler is given besides features; without a block of its own its configuration is
empty. -/
structure HandlerContext where
  artifactProvider : Option ArtifactProvider
  configuration : Properties
  phase : Phase

/-- One call as the handler saw it. -/
structure Invocation where
  handler : String
  extension : String
  /-- The source of a merge, or the feature that is post-processed. -/
  feature : ArtifactId
  phase : Phase
  configuration : Properties
  hasArtifactProvider : Bool
  deriving DecidableEq

/-- A log: the one that handlers share, or the log of one handler. -/
inductive LogId where
  | shared
  | own (handler : Tag)
  deriving DecidableEq, Repr

structure LogEntry where
  log : LogId
  invocation : Invocation
  deriving DecidableEq

/-- How a call ends. -/
structure Outcome where
  feature : Feature
  failure : Option Failure := none
  log : List LogEntry := []
  deriving DecidableEq

structure MergeHandler where
  tag : Tag
  name : String
  /-- Whether the handler takes responsibility for an extension. -/
  claims : Extension → Bool
  /-- Merges an extension of the source into the target. -/
  merge : HandlerContext → (target source : Feature) → Extension → Outcome

structure PostHandler where
  tag : Tag
  name : String
  process : HandlerContext → Feature → Extension → Outcome

/-- The record of a call. -/
def HandlerContext.invocation (context : HandlerContext) (handler : String) (feature : ArtifactId)
    (e : Extension) : Invocation where
  handler := handler
  extension := e.name
  feature := feature
  phase := context.phase
  configuration := context.configuration
  hasArtifactProvider := context.artifactProvider.isSome

end FeatureMerge
