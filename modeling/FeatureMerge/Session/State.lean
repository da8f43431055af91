import FeatureMerge.Context.Builder
import FeatureMerge.Feature.Draft
import FeatureMerge.Trace

/-!
# The state of a session

Slots hold what a session has made; a new value replaces the old one. The state
also keeps the log of all handlers and the requests to feature providers.
-/

namespace FeatureMerge.Session

/-- Named values, the newest first. -/
abbrev Slots (α : Type) := List (String × α)

/-- The value of a slot, or a refusal that names the slot. -/
def Slots.get {α : Type} (slots : Slots α) (name : String) : Except Refusal α :=
  match slots.lookup name with
  | some a => .ok a
  | none => .error (.noSuchSlot name)

def Slots.put {α : Type} (slots : Slots α) (name : String) (a : α) : Slots α :=
  (name, a) :: slots

def Slots.remove {α : Type} (slots : Slots α) (name : String) : Slots α :=
  slots.filter (·.1 ≠ name)

/-- A context that was built, or one that only offers what a merge reads. -/
inductive AnyContext where
  | built (c : MergeContext)
  | custom (c : MergeSource)

namespace AnyContext

def source : AnyContext → MergeSource
  | built c => c.toMergeSource
  | custom c => c

end AnyContext

structure State where
  nextTag : Tag := 0
  providers : Slots FeatureProvider := []
  artifactProviders : Slots ArtifactProvider := []
  mergeHandlers : Slots MergeHandler := []
  postHandlers : Slots PostHandler := []
  builders : Slots Builder := []
  contexts : Slots AnyContext := []
  features : Slots Feature := []
  /-- The providers whose requests are remembered. -/
  memories : Slots Tag := []
  /-- The handlers with logs of their own. -/
  diaries : Slots Tag := []
  requests : List (Tag × ArtifactId) := []
  log : List LogEntry := []

namespace State

/-- A context that can be forked and derived from. -/
def builtContext (s : State) (name : String) : Except Refusal MergeContext := do
  match ← s.contexts.get name with
  | .built c => return c
  | .custom _ => .error (.noSuchSlot name)

def source (s : State) (name : String) : Except Refusal MergeSource :=
  return (← s.contexts.get name).source

/-- The state after a tag has been given away. -/
def tagged (s : State) : State := { s with nextTag := s.nextTag + 1 }

/-- Notes that a provider was asked for a feature. -/
def noteRequest (s : State) (provider : FeatureProvider) (id : ArtifactId) : State :=
  { s with requests := s.requests ++ [(provider.tag, id)] }

def requestsOf (s : State) (tag : Tag) : List ArtifactId :=
  (s.requests.filter (·.1 = tag)).map Prod.snd

/-- The calls that a handler logged for itself. -/
def callsOf (s : State) (tag : Tag) : List Invocation :=
  (s.log.filter (·.log = .own tag)).map (·.invocation)

/-- The calls that were logged to the shared log after the first `start` entries. -/
def sharedCallsFrom (s : State) (start : Nat) : List Invocation :=
  ((s.log.drop start).filter (·.log = .shared)).map (·.invocation)

end State

end FeatureMerge.Session
