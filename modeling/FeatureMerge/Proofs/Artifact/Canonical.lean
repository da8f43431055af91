import FeatureMerge.Proofs.Artifact.Forms
import FeatureMerge.Proofs.Artifact.Grammar

/-!
# Canonical texts

A form writes an id in one way only, and of the texts that it reads as the id that one is
canonical: no optional part is empty, and the default packaging is not written unless a
classifier follows. Writing what was read so brings a text into canonical form
(`write_canonical`).
-/

namespace FeatureMerge.ArtifactId

open FeatureMerge.Text

theorem length_optionalParts_le (id : ArtifactId) : id.optionalParts.length ≤ 2 := by
  unfold optionalParts
  cases id.classifier with
  | some classifier => simp
  | none => by_cases h : id.packaging = defaultPackaging <;> simp [h]

/-- The parts of an id as they are written. -/
def coordinates (id : ArtifactId) : Coordinates where
  group := id.group
  name := id.name
  version := id.version
  optional := id.optionalParts
  length_optional_le := id.length_optionalParts_le

/-- The optional parts are those that the id they name is written with. -/
def Coordinates.IsCanonical (c : Coordinates) : Prop :=
  match c.optional with
  | [] => True
  | [packaging] => packaging ≠ "" ∧ packaging ≠ defaultPackaging
  | packaging :: classifier :: _ => packaging ≠ "" ∧ classifier ≠ ""

theorem IsChecked.isCanonical {id : ArtifactId} (h : id.IsChecked) :
    id.coordinates.IsCanonical := by
  show match id.optionalParts with
    | [] => True
    | [packaging] => packaging ≠ "" ∧ packaging ≠ defaultPackaging
    | packaging :: classifier :: _ => packaging ≠ "" ∧ classifier ≠ ""
  unfold optionalParts
  cases hc : id.classifier with
  | some classifier => exact ⟨h.packaging_ne, fun he => h.classifier_ne (he ▸ hc)⟩
  | none =>
    by_cases hd : id.packaging = defaultPackaging
    · simp [hd]
    · simp [hd, h.packaging_ne]

theorem Coordinates.IsCanonical.optionalParts_id {c : Coordinates} (h : c.IsCanonical) :
    c.id.optionalParts = c.optional := by
  obtain ⟨group, name, version, optional, hle⟩ := c
  match optional, hle, h with
  | [], _, _ => rfl
  | [packaging], hle, h =>
    have hp : (Coordinates.id ⟨group, name, version, [packaging], hle⟩).packaging = packaging :=
      if_neg h.1
    show (if _ = defaultPackaging then [] else [_]) = _
    rw [hp, if_neg h.2]
  | [packaging, classifier], hle, h =>
    have hp : (Coordinates.id ⟨group, name, version, [packaging, classifier], hle⟩).packaging =
        packaging := if_neg h.1
    have hc : (Coordinates.id ⟨group, name, version, [packaging, classifier], hle⟩).classifier =
        some classifier := if_neg h.2
    rw [optionalParts, hc, hp]

theorem Coordinates.IsCanonical.coordinates_id {c : Coordinates} (h : c.IsCanonical) :
    c.id.coordinates = c := by
  unfold coordinates
  simp only [h.optionalParts_id]
  rfl

namespace Form

variable {form : Form} {s t : String} {id id' : ArtifactId}

theorem write_eq (form : Form) (id : ArtifactId) :
    form.write id = form.start ++ joined form.separator (form.arrange id.coordinates) := by
  cases form with
  | colons => exact String.empty_append.symm
  | url => rfl

/-- An id that is read is made of pieces of the text. -/
theorem exists_madeOf_of_read (h : form.read s = .ok id) :
    ∃ body, MadeOf (pieces form.separator body) id := by
  cases form with
  | colons => exact ⟨s, madeOf_of_ofColonPieces (ofColons_eq_ok_iff.1 h)⟩
  | url =>
    obtain ⟨body, -, h⟩ := ofUrl_eq_ok_iff.1 h
    exact ⟨body, madeOf_of_ofUrlPieces h⟩

theorem isChecked_of_read (h : form.read s = .ok id) : id.IsChecked := by
  obtain ⟨body, hmade⟩ := exists_madeOf_of_read h
  exact hmade.isChecked

theorem not_mem_parts_of_read (h : form.read s = .ok id) :
    ∀ part ∈ id.parts, form.separator ∉ part.toList := by
  obtain ⟨body, hmade⟩ := exists_madeOf_of_read h
  exact hmade.not_mem_parts (by cases form <;> decide)

theorem hasPieces_write (h : form.read s = .ok id) :
    form.HasPieces (form.write id) (form.arrange id.coordinates) := by
  have hparts := not_mem_parts_of_read h
  refine ⟨?_, ?_, form.write_eq id⟩
  · cases form <;> simp [arrange]
  · cases form with
    | colons => exact (forall_mem_colonParts_iff (by decide) id).2 hparts
    | url => exact (forall_mem_urlParts_iff (by decide) id).2 hparts

theorem read_write (h : form.read s = .ok id) : form.read (form.write id) = .ok id := by
  have hc := isChecked_of_read h
  have hparts := not_mem_parts_of_read h
  cases form with
  | colons => exact (ofColons_toColons_iff hc).2 hparts
  | url => exact (ofUrl_toUrl_iff hc).2 hparts

theorem write_eq_self_iff (h : form.read s = .ok id) :
    form.write id = s ↔ ∃ c, form.HasPieces s (form.arrange c) ∧ c.IsCanonical := by
  constructor
  · rintro rfl
    exact ⟨id.coordinates, hasPieces_write h, (isChecked_of_read h).isCanonical⟩
  · rintro ⟨c, hc, hcanonical⟩
    rw [read_of_arrange hc, mapError_eq_ok_iff, check_eq_ok_iff] at h
    rw [write_eq, ← h.2, hcanonical.coordinates_id, hc.eq_joined]

/-- What is written is read as the same id, and it is the canonical one of all texts that are. -/
theorem write_canonical (h : form.read s = .ok id) :
    form.read (form.write id) = .ok id ∧
    (form.write id = s ↔ ∃ c, form.HasPieces s (form.arrange c) ∧ c.IsCanonical) ∧
    ∀ t id', form.read t = .ok id' → (id' = id ↔ form.write id' = form.write id) := by
  refine ⟨read_write h, write_eq_self_iff h, fun t id' ht => ⟨congrArg form.write, fun he => ?_⟩⟩
  have hback := read_write ht
  rw [he, read_write h] at hback
  exact (Except.ok.inj hback).symm

/-- An empty packaging is the default one, which is written where a classifier follows. -/
theorem write_canonical_classifier :
    ∃ id, Form.url.read "mvn:g/a/1//c" = .ok id ∧ Form.url.read "mvn:g/a/1/jar/c" = .ok id ∧
      Form.url.write id = "mvn:g/a/1/jar/c" := by
  have h : Form.url.read "mvn:g/a/1/jar/c" = .ok ⟨"g", "a", "1", "jar", some "c"⟩ := by decide
  refine ⟨_, by decide, h, (write_canonical h).2.1.2 ?_⟩
  refine ⟨⟨"g", "a", "1", ["jar", "c"], by decide⟩, ⟨by decide, by decide, by decide⟩, ?_⟩
  exact ⟨by decide, by decide⟩

end Form

end FeatureMerge.ArtifactId
