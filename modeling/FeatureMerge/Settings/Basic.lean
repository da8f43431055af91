import FeatureMerge.Blocks
import FeatureMerge.Policy

/-!
# Builder settings

`Settings` is the part of a merge context that can be written down: overwrites,
handler blocks and policies. A policy that is not set leaves the decision to
the builder.
-/

namespace FeatureMerge

structure Settings where
  mergeAlgorithm : Option MergeAlgorithm := none
  propagation : Option Propagation := none
  «variables» : Properties := .empty
  frameworkProperties : Properties := .empty
  handlers : Blocks := .empty
  deriving DecidableEq

namespace Settings

/-- Settings that set nothing. -/
def empty : Settings := {}

/-- The names of the fields in a document, in the order in which they are written. -/
def fieldNames : List String :=
  ["merge-algorithm", "configuration-propagation", "variables", "framework-properties", "handlers"]

end Settings

end FeatureMerge
