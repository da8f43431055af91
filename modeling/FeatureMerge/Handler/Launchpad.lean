import FeatureMerge.Handler.Basic
import FeatureMerge.Policy

/-!
# The launchpad handler

It merges the artifact lists of `launchpad` extensions. Two versions of one
artifact are a conflict, unless the block asks for lenient mode; then the
configured algorithm picks one of them.
-/

namespace FeatureMerge.Handler

def launchpadName : String := "launchpad"

def conflict (current incoming : ArtifactId) (source : Feature) : Failure :=
  .ofMessage <|
    s!"launchpad artifact conflict: {current.toColons} vs {incoming.toColons}"
      ++ s!" from {source.id.toColons}"

/-- A list with an artifact taken in, or the artifact in it that stands against that. The first
other version of the artifact is replaced by what `resolve?` makes of the two. -/
def takeIn (resolve? : ArtifactId → ArtifactId → Option ArtifactId) (incoming : ArtifactId) :
    List ArtifactId → Except ArtifactId (List ArtifactId)
  | [] => .ok [incoming]
  | current :: rest =>
    if current.isSame incoming then
      if current.version = incoming.version then .ok (current :: rest)
      else
        match resolve? current incoming with
        | some picked => .ok (picked :: rest)
        | none => .error current
    else (takeIn resolve? incoming rest).map (current :: ·)

/-- Takes in artifacts one by one, up to the first conflict. -/
def takeInAll (resolve? : ArtifactId → ArtifactId → Option ArtifactId) (source : Feature) :
    List ArtifactId → List ArtifactId → List ArtifactId × Option Failure
  | existing, [] => (existing, none)
  | existing, incoming :: rest =>
    match takeIn resolve? incoming existing with
    | .ok existing => takeInAll resolve? source existing rest
    | .error current => (existing, some (conflict current incoming source))

/-- How a block wants conflicts resolved: not at all, unless it is lenient. -/
def resolution (configuration : Properties) (algorithm : MergeAlgorithm)
    (current incoming : ArtifactId) : Option ArtifactId :=
  if configuration.get? "mode" = some "lenient" then some (algorithm.select current incoming)
  else none

def mergeLaunchpad (context : HandlerContext) (target source : Feature) (e : Extension) :
    Outcome :=
  let configuration := context.configuration
  match MergeAlgorithm.ofText ((configuration.get? "algorithm").getD "highest") with
  | .error error => { feature := target, failure := some (.ofError error) }
  | .ok algorithm =>
    match target.extension? e.name with
    | none => { feature := target.addExtension e }
    | some existing =>
      let (artifacts, failure) :=
        takeInAll (resolution configuration algorithm) source existing.artifacts e.artifacts
      { feature := target.modifyExtension e.name fun x => { x with artifacts := artifacts }
        failure }

def launchpad (tag : Tag) (name : String) : MergeHandler where
  tag := tag
  name := name
  claims e := e.name = launchpadName && e.kind = .artifacts
  merge := mergeLaunchpad

end FeatureMerge.Handler
