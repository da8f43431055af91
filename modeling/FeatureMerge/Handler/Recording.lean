import FeatureMerge.Handler.Basic

/-!
# Recording handlers

The recorder logs each call and merges in a plain way: texts are joined with
the configured separator, lists of artifacts are concatenated without
duplicates, and of JSON the latest contribution counts. The post recorder only
logs.
-/

namespace FeatureMerge.Handler

/-- The text between joined contributions, unless a block sets another. -/
def defaultSeparator : String := "\n"

def separator (configuration : Properties) : String :=
  (configuration.get? "separator").getD defaultSeparator

/-- Joins a contribution to a text; nothing stands before the first one. -/
def joinText (separator : String) (before contribution : Option String) : String :=
  let before := before.getD ""
  let contribution := contribution.getD ""
  if before = "" then contribution else before ++ separator ++ contribution

/-- Adds the artifacts that are not there yet, one after another. -/
def mergeArtifacts (existing incoming : List ArtifactId) : List ArtifactId :=
  incoming.foldl (fun ids id => if id ∈ ids then ids else ids ++ [id]) existing

/-- What a recorder makes of a contribution to an extension that is there already. -/
def combine (configuration : Properties) (contribution existing : Extension) : Extension :=
  match contribution.kind with
  | .text =>
    { existing with
      text := some (joinText (separator configuration) existing.text contribution.text) }
  | .json => { existing with text := contribution.text }
  | .artifacts =>
    { existing with
      artifacts := mergeArtifacts existing.artifacts contribution.artifacts }

/-- Merges an extension: it takes the place of all of its name in an initial phase, and is combined
with the first of its name otherwise. -/
def place (context : HandlerContext) (target : Feature) (e : Extension) : Feature :=
  if context.phase.isInitial || (target.extension? e.name).isNone then
    (target.removeExtension e.name).addExtension e
  else target.modifyExtension e.name (combine context.configuration e)

def recorder (tag : Tag) (name : String) (extensions : List String) (log : LogId) :
    MergeHandler where
  tag := tag
  name := name
  claims e := e.name ∈ extensions
  merge context target source e :=
    { feature := place context target e
      log := [⟨log, context.invocation name source.id e⟩] }

def postRecorder (tag : Tag) (name : String) (log : LogId) : PostHandler where
  tag := tag
  name := name
  process context f e := { feature := f, log := [⟨log, context.invocation name f.id e⟩] }

end FeatureMerge.Handler
