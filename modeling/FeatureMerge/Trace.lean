import FeatureMerge.Context.Builder
import FeatureMerge.Dispatch

/-!
# Trace events

What the steps of a merge report while they run. Events are computed beside
the steps and never change what those do.
-/

namespace FeatureMerge.Trace

inductive Level where
  | debug
  | trace
  deriving DecidableEq, Repr

inductive FieldValue where
  | text (s : String)
  | count (n : Nat)
  | flag (b : Bool)
  deriving DecidableEq, Repr

structure Event where
  level : Level
  message : String
  fields : List (String × FieldValue)
  deriving DecidableEq, Repr

def derive (c : MergeContext) : Event where
  level := .debug
  message := "Deriving builder context"
  fields := [
    ("merge_handlers", .count c.mergeHandlers.size),
    ("post_process_handlers", .count c.postHandlers.size),
    ("variables", .count c.variables.size),
    ("framework_properties", .count c.frameworkProperties.size),
    ("carried_configurations", .count c.inherited.size),
    ("algorithm", .text c.mergeAlgorithm.name)]

def settings (s : Settings) : Event where
  level := .debug
  message := "Applying builder settings"
  fields := [
    ("variables", .count s.variables.size),
    ("framework_properties", .count s.frameworkProperties.size),
    ("handlers", .count s.handlers.size)]

/-- Handlers are reported as they are registered; other operations are silent. -/
def operation : Operation → List Event
  | .mergeHandlers handlers =>
    handlers.map fun h => ⟨.debug, "Registering merge handler", [("handler", .text h.name)]⟩
  | .postHandlers handlers =>
    handlers.map fun h =>
      ⟨.debug, "Registering post-process handler", [("handler", .text h.name)]⟩
  | _ => []

def phaseFields (phase : Phase) : List (String × FieldValue) :=
  [("prototype", .flag phase.isPrototype), ("initial", .flag phase.isInitial)]

/-- The event of a merge that is about to be dispatched. -/
def merge (c : MergeSource) (phase : Phase) (target source : Feature) (e : Extension) : Event :=
  match c.claimant? e with
  | none => ⟨.trace, "No merge handler claimed extension", [("extension", .text e.name)]⟩
  | some (name, _) =>
    { level := .debug
      message := "Invoking merge handler"
      fields := [
        ("handler", .text name),
        ("extension", .text e.name),
        ("source", .text source.id.toColons),
        ("target", .text target.id.toColons)] ++ phaseFields phase }

def call (c : Call) : Event where
  level := .debug
  message := "Invoking post-process handler"
  fields := [
    ("handler", .text c.handler),
    ("extension", .text c.extension.name),
    ("feature", .text c.feature.id.toColons)] ++ phaseFields c.context.phase

end FeatureMerge.Trace
