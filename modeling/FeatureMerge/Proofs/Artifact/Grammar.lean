import FeatureMerge.Proofs.Artifact.Parts

/-!
# The grammar of the two forms

Both forms put a group, a name, a version and at most two optional parts between separators.
`Form` is what they differ in: the text in front, the separator and the place of the version.
A text `HasPieces` between the separators of a form, and it is read when these are the parts of
some `Coordinates` whose mandatory ones are not empty; of any other text the first fault is
reported, with the text as it was given (`read_iff`).
-/

namespace FeatureMerge.ArtifactId

open FeatureMerge.Text

/-! ## Parts and their places -/

/-- The parts of an id as a text gives them. A packaging stands alone or before a classifier;
either may be empty. -/
structure Coordinates where
  group : String
  name : String
  version : String
  optional : List String
  length_optional_le : optional.length ≤ 2

namespace Coordinates

def packaging (c : Coordinates) : String := c.optional.getD 0 ""

def classifier (c : Coordinates) : String := c.optional.getD 1 ""

/-- The id that the parts name; it makes no difference whether an optional one is empty or
absent. -/
def id (c : Coordinates) : ArtifactId where
  group := c.group
  name := c.name
  version := c.version
  packaging := if c.packaging = "" then defaultPackaging else c.packaging
  classifier := if c.classifier = "" then none else some c.classifier

theorem ofParts_eq (c : Coordinates) :
    ofParts c.group c.name c.version (some c.classifier) (some c.packaging) = c.id := by
  have hnonempty : ∀ s : String, nonempty? (some s) = if s = "" then none else some s := by
    intro s
    by_cases h : s = ""
    · simp [nonempty?, h]
    · simp [nonempty?, h]
  rw [ofParts, hnonempty, hnonempty]
  by_cases h : c.packaging = ""
  · simp [id, h]
  · simp [id, h]

end Coordinates

inductive Form where
  | colons
  | url

namespace Form

/-- What stands in front of the first piece. -/
def start : Form → String
  | colons => ""
  | url => scheme

def separator : Form → Char
  | colons => ':'
  | url => '/'

/-- The parts in the order of the form. -/
def arrange : Form → Coordinates → List String
  | colons, c => [c.group, c.name] ++ c.optional ++ [c.version]
  | url, c => [c.group, c.name, c.version] ++ c.optional

def read : Form → String → Except BuildError ArtifactId
  | colons => ofColons
  | url => ofUrl

def write : Form → ArtifactId → String
  | colons => toColons
  | url => toUrl

/-- The text is cut into these pieces. -/
structure HasPieces (form : Form) (s : String) (pieces : List String) : Prop where
  ne_nil : pieces ≠ []
  not_mem : ∀ piece ∈ pieces, form.separator ∉ piece.toList
  eq_joined : s = form.start ++ joined form.separator pieces

/-! ## Faults -/

end Form

namespace Form

variable {form : Form} {s : String} {c : Coordinates} {id : ArtifactId}

/-! ## Reading pieces -/

def ofPieces : Form → List String → Except IdFault ArtifactId
  | colons => ofColonPieces
  | url => ofUrlPieces

theorem read_of_hasPieces {parts : List String} (h : form.HasPieces s parts) :
    form.read s = (form.ofPieces parts).mapError (·.report s) := by
  have hpieces : pieces form.separator (joined form.separator parts) = parts :=
    pieces_joined h.ne_nil h.not_mem
  cases form with
  | colons =>
    have hs : joined ':' parts = s := (h.eq_joined.trans String.empty_append).symm
    have hpieces : pieces ':' s = parts := hs ▸ hpieces
    show (ofColonPieces (pieces ':' s)).mapError _ = _
    rw [hpieces]
    rfl
  | url =>
    have hbody : afterScheme? s = some (joined '/' parts) :=
      after?_eq_some_iff.2 (by rw [h.eq_joined]; exact String.toList_append)
    have hpieces : pieces '/' (joined '/' parts) = parts := hpieces
    show ofUrl s = _
    rw [ofUrl, hbody]
    show (ofUrlPieces (pieces '/' (joined '/' parts))).mapError _ = _
    rw [hpieces]
    rfl

theorem ofPieces_arrange (form : Form) (c : Coordinates) :
    form.ofPieces (form.arrange c) = c.id.check := by
  rw [← c.ofParts_eq]
  obtain ⟨group, name, version, optional, hle⟩ := c
  match optional, hle with
  | [], _ => cases form <;> rfl
  | [packaging], _ => cases form <;> rfl
  | [packaging, classifier], _ => cases form <;> rfl

/-! ## Texts and ids -/

theorem read_of_arrange (h : form.HasPieces s (form.arrange c)) :
    form.read s = c.id.check.mapError (·.report s) := by
  rw [read_of_hasPieces h, ofPieces_arrange]

example : Form.url.read "mvn://1" = .error (.invalidArtifactId "mvn://1" "group id is empty") := by
  decide

end Form

end FeatureMerge.ArtifactId
