import FeatureMerge.Fault

/-!
# Artifact coordinates

An `ArtifactId` names one artifact of a repository: group, name, version,
packaging and, if it has one, a classifier. `ArtifactId.make` is the checked
way to build one; the packaging is `jar` when none is given.
-/

namespace FeatureMerge

structure ArtifactId where
  group : String
  name : String
  version : String
  packaging : String
  classifier : Option String
  deriving DecidableEq, Repr

/-- Why a text or a list of parts is no artifact id. -/
inductive IdFault where
  | missingScheme
  | colonPieceCount
  | slashPieceCount
  | emptyGroup
  | emptyName
  | emptyVersion
  deriving DecidableEq, Repr

namespace IdFault

def reason : IdFault → String
  | missingScheme => "missing 'mvn:' prefix"
  | colonPieceCount => "expected 3 to 5 colon separated parts"
  | slashPieceCount => "expected 3 to 5 slash separated parts"
  | emptyGroup => "group id is empty"
  | emptyName => "artifact id is empty"
  | emptyVersion => "version is empty"

/-- The error that reports the fault of `input`. -/
def report (fault : IdFault) (input : String) : BuildError :=
  .invalidArtifactId input fault.reason

end IdFault

namespace ArtifactId

def defaultPackaging : String := "jar"

/-- An empty optional part counts as absent. -/
def nonempty? (part : Option String) : Option String :=
  part.filter fun s => s ≠ ""

/-- The id with these parts, whether or not a mandatory one is empty. -/
def ofParts (group name version : String) (classifier packaging : Option String) : ArtifactId where
  group := group
  name := name
  version := version
  packaging := (nonempty? packaging).getD defaultPackaging
  classifier := nonempty? classifier

/-- The first mandatory part that is empty. -/
def fault? (id : ArtifactId) : Option IdFault :=
  if id.group = "" then some .emptyGroup
  else if id.name = "" then some .emptyName
  else if id.version = "" then some .emptyVersion
  else none

def check (id : ArtifactId) : Except IdFault ArtifactId :=
  match id.fault? with
  | some fault => .error fault
  | none => .ok id

/-- The same artifact in another version, which is not checked. -/
def withVersion (id : ArtifactId) (version : String) : ArtifactId :=
  { id with version := version }

/-- Whether two ids agree in all but the version. -/
def isSame (a b : ArtifactId) : Bool :=
  a.group = b.group && a.name = b.name && a.packaging = b.packaging && a.classifier = b.classifier

theorem isSame_withVersion (id : ArtifactId) (version : String) :
    id.isSame (id.withVersion version) = true := by
  simp [isSame, withVersion]

theorem isSame_comm (a b : ArtifactId) : a.isSame b = b.isSame a := by
  simp only [isSame, eq_comm]

end ArtifactId

end FeatureMerge
