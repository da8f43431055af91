import FeatureMerge.Artifact.Id
import FeatureMerge.Text.Pieces

/-!
# The written forms of artifact ids

`group:name[:packaging[:classifier]]:version` is the colon form, and
`mvn:group/name/version[/packaging[/classifier]]` the url form. `ofText` reads
either; the url scheme decides which. `toPath` is the place of the artifact's
file below the root of a repository.
-/

namespace FeatureMerge

namespace ArtifactId

def scheme : String := "mvn:"

/-- Reads the pieces of the colon form. -/
def ofColonPieces : List String → Except IdFault ArtifactId
  | [group, name, version] => (ofParts group name version none none).check
  | [group, name, packaging, version] => (ofParts group name version none (some packaging)).check
  | [group, name, packaging, classifier, version] =>
    (ofParts group name version (some classifier) (some packaging)).check
  | _ => .error .colonPieceCount

/-- Reads the pieces of the url form. -/
def ofUrlPieces : List String → Except IdFault ArtifactId
  | [group, name, version] => (ofParts group name version none none).check
  | [group, name, version, packaging] => (ofParts group name version none (some packaging)).check
  | [group, name, version, packaging, classifier] =>
    (ofParts group name version (some classifier) (some packaging)).check
  | _ => .error .slashPieceCount

/-- What stands behind the scheme of the url form. -/
def afterScheme? (s : String) : Option String :=
  Text.after? scheme s

/-- Reads the colon form; an error quotes the text as given. -/
def ofColons (s : String) : Except BuildError ArtifactId :=
  (ofColonPieces (Text.pieces ':' s)).mapError (·.report s)

/-- Reads the url form; an error quotes the text as given. -/
def ofUrl (s : String) : Except BuildError ArtifactId :=
  match afterScheme? s with
  | none => .error (IdFault.missingScheme.report s)
  | some body => (ofUrlPieces (Text.pieces '/' body)).mapError (·.report s)

/-- Reads either form. -/
def ofText (s : String) : Except BuildError ArtifactId :=
  if (afterScheme? s).isSome then ofUrl s else ofColons s

/-- Packaging and classifier, as far as they are written. -/
def optionalParts (id : ArtifactId) : List String :=
  match id.classifier with
  | some classifier => [id.packaging, classifier]
  | none => if id.packaging = defaultPackaging then [] else [id.packaging]

def toColons (id : ArtifactId) : String :=
  Text.joined ':' ([id.group, id.name] ++ id.optionalParts ++ [id.version])

def toUrl (id : ArtifactId) : String :=
  scheme ++ Text.joined '/' ([id.group, id.name, id.version] ++ id.optionalParts)

/-- The directory of a group: dots separate its levels. -/
def groupDirectory (group : String) : String :=
  String.ofList (group.toList.map fun c => if c = '.' then '/' else c)

def fileName (id : ArtifactId) : String :=
  match id.classifier with
  | some classifier => s!"{id.name}-{id.version}-{classifier}.{id.packaging}"
  | none => s!"{id.name}-{id.version}.{id.packaging}"

/-- The place of the file below a repository's root. -/
def toPath (id : ArtifactId) : String :=
  Text.joined '/' [groupDirectory id.group, id.name, id.version, id.fileName]

/-- The checked way to build an id from its parts; an error quotes the id they would give. -/
def make (group name version : String) (classifier packaging : Option String) :
    Except BuildError ArtifactId :=
  let id := ofParts group name version classifier packaging
  id.check.mapError (·.report id.toColons)

instance : ToString ArtifactId := ⟨toColons⟩

end ArtifactId

end FeatureMerge
