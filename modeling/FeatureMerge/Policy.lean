import FeatureMerge.Artifact.Text
import FeatureMerge.Version.Key

/-!
# Policies of a merge

`MergeAlgorithm` picks between two versions of one artifact, `Propagation` says
whether nested merges see the handler blocks of the merge around them. Names
are read without regard to ASCII case.
-/

namespace FeatureMerge

inductive MergeAlgorithm where
  | latest
  | highest
  deriving DecidableEq, Repr, Inhabited

namespace MergeAlgorithm

def default : MergeAlgorithm := highest

def name : MergeAlgorithm → String
  | latest => "latest"
  | highest => "highest"

def ofText (s : String) : Except BuildError MergeAlgorithm :=
  if s.toLower = latest.name then .ok latest
  else if s.toLower = highest.name then .ok highest
  else .error (.invalidMergeAlgorithm s)

/-- The id to keep of one already present and one newly seen; a tie keeps the former. -/
def select (algorithm : MergeAlgorithm) (existing candidate : ArtifactId) : ArtifactId :=
  match algorithm with
  | latest => candidate
  | highest =>
    if Version.compareVersions candidate.version existing.version = .gt then candidate
    else existing

end MergeAlgorithm

inductive Propagation where
  | reset
  | carry
  deriving DecidableEq, Repr, Inhabited

namespace Propagation

def default : Propagation := reset

def name : Propagation → String
  | reset => "reset"
  | carry => "carry"

def ofText (s : String) : Except BuildError Propagation :=
  if s.toLower = reset.name then .ok reset
  else if s.toLower = carry.name then .ok carry
  else .error (.invalidPropagationPolicy s)

end Propagation

end FeatureMerge
