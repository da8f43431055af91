import FeatureMerge.Handler.Basic

/-!
# Failing handlers

They claim every extension, change nothing, log nothing and fail each call.
-/

namespace FeatureMerge.Handler

def rejection (name : String) (e : Extension) (id : ArtifactId) : Failure :=
  .ofMessage s!"{name} rejected extension '{e.name}' of {id.toColons}"

def failing (tag : Tag) (name : String) : MergeHandler where
  tag := tag
  name := name
  claims _ := true
  merge _ target source e := { feature := target, failure := some (rejection name e source.id) }

def postFailing (tag : Tag) (name : String) : PostHandler where
  tag := tag
  name := name
  process _ f e := { feature := f, failure := some (rejection name e f.id) }

end FeatureMerge.Handler
