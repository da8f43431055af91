import FeatureMerge.Proofs.Artifact.Canonical
import FeatureMerge.Proofs.Json.Decoding

/-!
# Ids that can be obtained

`Obtained` is every id that the operations give: made from parts, read from a text, decoded from
a document, and then changed to other versions, which nobody checks. No part of such an id is
empty, but for a version that it was changed to last (`isChecked_iff_of_obtained`).
-/

namespace FeatureMerge.ArtifactId

/-- The id can be obtained by way of changes to the versions listed, the last one first. -/
inductive Obtained : List String → ArtifactId → Prop where
  | make {group name version : String} {classifier packaging : Option String} {id : ArtifactId} :
      make group name version classifier packaging = .ok id → Obtained [] id
  | ofColons {s : String} {id : ArtifactId} : ofColons s = .ok id → Obtained [] id
  | ofUrl {s : String} {id : ArtifactId} : ofUrl s = .ok id → Obtained [] id
  | ofText {s : String} {id : ArtifactId} : ofText s = .ok id → Obtained [] id
  | decode {o : Json.Outline} {id : ArtifactId} : decode o = .ok id → Obtained [] id
  | ofJson {text : String} {id : ArtifactId} : ofJson text = .ok id → Obtained [] id
  | withVersion {versions : List String} {id : ArtifactId} (version : String) :
      Obtained versions id → Obtained (version :: versions) (id.withVersion version)

section

variable {id : ArtifactId}

theorem isChecked_of_make {group name version : String} {classifier packaging : Option String}
    (h : make group name version classifier packaging = .ok id) : id.IsChecked :=
  isChecked_of_check (mapError_eq_ok_iff.1 h)

theorem isChecked_of_ofColons {s : String} (h : ofColons s = .ok id) : id.IsChecked :=
  Form.isChecked_of_read (show Form.colons.read s = .ok id from h)

theorem isChecked_of_ofUrl {s : String} (h : ofUrl s = .ok id) : id.IsChecked :=
  Form.isChecked_of_read (show Form.url.read s = .ok id from h)

theorem isChecked_of_ofText {s : String} (h : ofText s = .ok id) : id.IsChecked := by
  rcases ofColons_or_ofUrl_of_ofText h with h | h
  · exact isChecked_of_ofColons h
  · exact isChecked_of_ofUrl h

theorem isChecked_of_decode {o : Json.Outline} (h : decode o = .ok id) : id.IsChecked := by
  obtain ⟨s, -, hs⟩ := readText_eq_ok_iff.1 h
  exact isChecked_of_ofText hs

theorem isChecked_of_ofJson {text : String} (h : ofJson text = .ok id) : id.IsChecked := by
  obtain ⟨root, -, hroot⟩ := Json.Document.decode_eq_ok_iff.1 h
  exact isChecked_of_decode hroot

end

/-- Only the version last changed to can be empty, and it is if an empty one was asked for. -/
theorem isChecked_iff_of_obtained {versions : List String} {id : ArtifactId}
    (h : Obtained versions id) :
    (id.group ≠ "" ∧ id.name ≠ "" ∧ id.packaging ≠ "" ∧ id.classifier ≠ some "") ∧
    (id.IsChecked ↔ versions.head? ≠ some "") := by
  have hunchanged : ∀ {id : ArtifactId}, id.IsChecked →
      (id.group ≠ "" ∧ id.name ≠ "" ∧ id.packaging ≠ "" ∧ id.classifier ≠ some "") ∧
      (id.IsChecked ↔ ([] : List String).head? ≠ some "") := fun hc =>
    ⟨⟨hc.group_ne, hc.name_ne, hc.packaging_ne, hc.classifier_ne⟩, iff_of_true hc nofun⟩
  induction h with
  | make h => exact hunchanged (isChecked_of_make h)
  | ofColons h => exact hunchanged (isChecked_of_ofColons h)
  | ofUrl h => exact hunchanged (isChecked_of_ofUrl h)
  | ofText h => exact hunchanged (isChecked_of_ofText h)
  | decode h => exact hunchanged (isChecked_of_decode h)
  | ofJson h => exact hunchanged (isChecked_of_ofJson h)
  | @withVersion _ id version _ ih =>
    obtain ⟨⟨hgroup, hname, hpackaging, hclassifier⟩, -⟩ := ih
    refine ⟨⟨hgroup, hname, hpackaging, hclassifier⟩, fun hc he => ?_, fun hne => ?_⟩
    · exact hc.version_ne (Option.some.inj he)
    · exact ⟨hgroup, hname, fun he => hne (congrArg some he), hpackaging, hclassifier⟩

/-- A later version makes up for an empty one. -/
theorem isChecked_iff_of_obtained_twice :
    ∃ id, ofText "g:a:1" = .ok id ∧ Obtained ["2", ""] ((id.withVersion "").withVersion "2") ∧
      ((id.withVersion "").withVersion "2").IsChecked := by
  have hread : ofText "g:a:1" = .ok ⟨"g", "a", "1", "jar", none⟩ := by decide
  have hid : Obtained ["2", ""]
      (((⟨"g", "a", "1", "jar", none⟩ : ArtifactId).withVersion "").withVersion "2") :=
    .withVersion "2" (.withVersion "" (.ofText hread))
  exact ⟨_, hread, hid, (isChecked_iff_of_obtained hid).2.2 (by decide)⟩

/-- Changed to an empty version an id is written as a text that no reader accepts. -/
theorem not_isChecked_withVersion :
    ∃ id, Obtained [""] id ∧ id.version = "" ∧ ¬ id.IsChecked ∧ id.toColons = "g:a:" ∧
      ofText id.toColons = .error (IdFault.emptyVersion.report "g:a:") := by
  have hread : ofText "g:a:1" = .ok ⟨"g", "a", "1", "jar", none⟩ := by decide
  refine ⟨_, .withVersion "" (.ofText hread), rfl, fun hc => hc.version_ne rfl, ?_, ?_⟩
  · decide
  · decide

end FeatureMerge.ArtifactId
