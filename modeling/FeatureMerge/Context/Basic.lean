import FeatureMerge.Blocks
import FeatureMerge.Handler.Basic
import FeatureMerge.Policy
import FeatureMerge.Registry

/-!
# Merge contexts

`MergeSource` is everything that a merge reads: providers, overwrites, handlers
and their blocks, and the merge algorithm. A `MergeContext` also says what
nested merges inherit.
-/

namespace FeatureMerge

/-- The parts of a context that may be absent or empty. -/
structure Assembly where
  artifactProvider : Option ArtifactProvider := none
  blocks : Blocks := .empty
  mergeHandlers : Registry MergeHandler := .empty
  postHandlers : Registry PostHandler := .empty
  «variables» : Properties := .empty
  frameworkProperties : Properties := .empty
  mergeAlgorithm : MergeAlgorithm := .default

structure MergeSource extends Assembly where
  featureProvider : FeatureProvider

structure MergeContext extends MergeSource where
  propagation : Propagation

namespace MergeSource

/-- The context of one call of the handler with that name. -/
def handlerContext (c : MergeSource) (name : String) (phase : Phase) : HandlerContext where
  artifactProvider := c.artifactProvider
  configuration := (c.blocks.get? name).getD .empty
  phase := phase

def locate (c : MergeSource) (id : ArtifactId) : Place := Place.of c.artifactProvider id

end MergeSource

end FeatureMerge
