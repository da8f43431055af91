import FeatureMerge.Feature.Basic

/-!
# Providers

A `FeatureProvider` resolves ids to features, an `ArtifactProvider` resolves
them to places from which artifacts can be fetched. Tags tell instances apart.
-/

namespace FeatureMerge

/-- Tells apart instances that behave alike. -/
abbrev Tag := Nat

structure FeatureProvider where
  tag : Tag
  provide : ArtifactId → Option Feature

structure ArtifactProvider where
  tag : Tag
  locate : ArtifactId → Option String

namespace FeatureProvider

/-- Knows the given features; of two with one id the later counts. -/
def ofList (tag : Tag) (features : List Feature) : FeatureProvider where
  tag := tag
  provide id := features.reverse.find? (·.id = id)

/-- Gives an empty feature for every id. -/
def echo (tag : Tag) : FeatureProvider where
  tag := tag
  provide id := some (Feature.bare id)

/-- Knows no feature. -/
def none (tag : Tag) : FeatureProvider where
  tag := tag
  provide _ := Option.none

end FeatureProvider

namespace ArtifactProvider

/-- A root without slashes at its end. -/
def trimRoot (root : String) : String :=
  String.ofList (root.toList.reverse.dropWhile (· = '/')).reverse

/-- The place of an artifact in a repository. -/
def place (root : String) (id : ArtifactId) : String := trimRoot root ++ "/" ++ id.toPath

/-- A repository that holds the known artifacts. -/
def repository (tag : Tag) (root : String) (known : List ArtifactId) : ArtifactProvider where
  tag := tag
  locate id := if id ∈ known then some (place root id) else none

/-- Every artifact lies in the repository below `root`. -/
def everything (tag : Tag) (root : String) : ArtifactProvider where
  tag := tag
  locate id := some (place root id)

/-- The url of an artifact serves as its place. -/
def urls (tag : Tag) : ArtifactProvider where
  tag := tag
  locate id := some id.toUrl

end ArtifactProvider

/-- What is known of the place of an artifact. -/
inductive Place where
  /-- There is nobody to ask. -/
  | unavailable
  | unknown
  | found (location : String)
  deriving DecidableEq, Repr

def Place.of (provider : Option ArtifactProvider) (id : ArtifactId) : Place :=
  match provider with
  | none => unavailable
  | some p => ((p.locate id).map found).getD unknown

end FeatureMerge
