import FeatureMerge.Context.Basic
import FeatureMerge.Settings.Basic

/-!
# Building contexts

A `Builder` is assembled by operations, each of which concerns one field: layers
of overwrites are put on top of each other, handlers are appended, blocks,
providers and policies are replaced. `Builder.build` asks for a feature
provider only. `MergeContext.derive` begins a builder with what nested merges
inherit, `MergeContext.fork` is the context that comes of it.
-/

namespace FeatureMerge

structure Builder extends Assembly where
  featureProvider : Option FeatureProvider := none
  propagation : Propagation := .default

/-- A step in the assembly of a context. -/
inductive Operation where
  | featureProvider (provider : FeatureProvider)
  | artifactProvider (provider : Option ArtifactProvider)
  | «variables» (layer : Properties)
  | frameworkProperties (layer : Properties)
  | mergeHandlers (handlers : List MergeHandler)
  | postHandlers (handlers : List PostHandler)
  | block (name : String) (block : Properties)
  | mergeAlgorithm (algorithm : MergeAlgorithm)
  | propagation (policy : Propagation)

namespace Builder

def fresh : Builder := {}

def apply (b : Builder) : Operation → Builder
  | .featureProvider provider => { b with featureProvider := some provider }
  | .artifactProvider provider => { b with artifactProvider := provider }
  | .«variables» layer => { b with «variables» := b.variables.insertAll layer }
  | .frameworkProperties layer =>
    { b with frameworkProperties := b.frameworkProperties.insertAll layer }
  | .mergeHandlers handlers =>
    { b with mergeHandlers := b.mergeHandlers.addAll MergeHandler.name handlers }
  | .postHandlers handlers =>
    { b with postHandlers := b.postHandlers.addAll PostHandler.name handlers }
  | .block name block => { b with blocks := b.blocks.set name block }
  | .mergeAlgorithm algorithm => { b with mergeAlgorithm := algorithm }
  | .propagation policy => { b with propagation := policy }

/-- Applies operations one after another. -/
def run (b : Builder) (operations : List Operation) : Builder := operations.foldl apply b

/-- The context with the given feature provider. -/
def assemble (b : Builder) (provider : FeatureProvider) : MergeContext where
  toAssembly := b.toAssembly
  featureProvider := provider
  propagation := b.propagation

def build (b : Builder) : Except BuildError MergeContext :=
  match b.featureProvider with
  | none => .error .missingFeatureProvider
  | some provider => .ok (b.assemble provider)

theorem run_append (b : Builder) (os ps : List Operation) :
    b.run (os ++ ps) = (b.run os).run ps := by
  simp [run]

end Builder

namespace Settings

/-- The operations that settings stand for. Policies that are not set leave the builder's alone. -/
def operations (s : Settings) : List Operation :=
  [.«variables» s.variables, .frameworkProperties s.frameworkProperties]
  ++ s.handlers.toList.map (fun e => .block e.1 e.2)
  ++ s.mergeAlgorithm.toList.map .mergeAlgorithm
  ++ s.propagation.toList.map .propagation

/-- Layers settings onto a builder. -/
def apply (s : Settings) (b : Builder) : Builder := b.run s.operations

end Settings

namespace MergeContext

/-- The blocks that nested merges see. -/
def inherited (c : MergeContext) : Blocks :=
  match c.propagation with
  | .reset => .empty
  | .carry => c.blocks

/-- A builder for nested merges. It has no feature provider yet. -/
def derive (c : MergeContext) : Builder where
  toAssembly := { c.toAssembly with blocks := c.inherited }
  featureProvider := none
  propagation := c.propagation

/-- The context of nested features that another provider resolves. -/
def fork (c : MergeContext) (provider : FeatureProvider) : MergeContext :=
  c.derive.assemble provider

/-- A context without handlers and overwrites. -/
def make (provider : Option FeatureProvider) : Except BuildError MergeContext :=
  { Builder.fresh with featureProvider := provider }.build

end MergeContext

end FeatureMerge
