import FeatureMerge.Proofs.Artifact.RoundTrip

/-!
# The two forms

A form gives an id back exactly when no part holds its separator, and `ofText` does so for the
colon form only if the group is not `mvn` (`make_restored_iff`). Which form a text is read in is
decided by the scheme alone. So a text in the colon form with the group `mvn` is taken for a
url: `ofText` accepts what either form does exactly when there is no such text that is not also
a url (`readsEither_iff`).
-/

namespace FeatureMerge.ArtifactId

open FeatureMerge.Text

variable {s : String} {id : ArtifactId}

/-! ## Ids that come back -/

theorem ofColons_toColons_iff (hc : id.IsChecked) :
    ofColons id.toColons = .ok id ↔ ∀ part ∈ id.parts, ':' ∉ part.toList := by
  rw [ofColons_eq_ok_iff]
  constructor
  · intro h
    exact (madeOf_of_ofColonPieces h).not_mem_parts (by decide)
  · intro h
    have hpieces : pieces ':' id.toColons = id.colonParts :=
      pieces_joined (by simp) ((forall_mem_colonParts_iff (by decide) id).2 h)
    rw [hpieces]
    exact ofColonPieces_colonParts hc

theorem ofText_toColons_eq_ok_iff (hc : id.IsChecked) :
    ofText id.toColons = .ok id ↔
      (∀ part ∈ id.parts, ':' ∉ part.toList) ∧ id.group ≠ "mvn" := by
  rw [← forall_mem_colonParts_iff (by decide)]
  constructor
  · intro h
    cases hs : afterScheme? id.toColons with
    | none => exact (isPlain_of_ofColonPieces hs ((ofText_of_no_scheme hs).1 h)).symm
    | some body => exact absurd ((ofText_of_scheme hs).1 h) (ofUrlPieces_toColons_ne hs)
  · rintro ⟨hparts, hgroup⟩
    exact ofText_toColons_of_isPlain hc ⟨hgroup, hparts⟩

theorem afterScheme?_toUrl (id : ArtifactId) :
    afterScheme? id.toUrl = some (joined '/' id.urlParts) :=
  after?_eq_some_iff.2 String.toList_append

theorem ofUrl_toUrl_iff (hc : id.IsChecked) :
    ofUrl id.toUrl = .ok id ↔ ∀ part ∈ id.parts, '/' ∉ part.toList := by
  rw [ofUrl_eq_ok_iff]
  constructor
  · rintro ⟨body, -, h⟩
    exact (madeOf_of_ofUrlPieces h).not_mem_parts (by decide)
  · intro h
    have hpieces : pieces '/' (joined '/' id.urlParts) = id.urlParts :=
      pieces_joined (by simp [urlParts]) ((forall_mem_urlParts_iff (by decide) id).2 h)
    refine ⟨_, afterScheme?_toUrl id, ?_⟩
    rw [hpieces]
    exact ofUrlPieces_urlParts hc

/-- Which ids come back from which form, read as that form or as either. -/
theorem make_restored_iff {group name version : String} {classifier packaging : Option String}
    (h : make group name version classifier packaging = .ok id) :
    (ofColons id.toColons = .ok id ↔ ∀ part ∈ id.parts, ':' ∉ part.toList) ∧
    (ofText id.toColons = .ok id ↔
      (∀ part ∈ id.parts, ':' ∉ part.toList) ∧ id.group ≠ "mvn") ∧
    (ofUrl id.toUrl = .ok id ↔ ∀ part ∈ id.parts, '/' ∉ part.toList) ∧
    (ofText id.toUrl = .ok id ↔ ∀ part ∈ id.parts, '/' ∉ part.toList) := by
  have hc : id.IsChecked := isChecked_of_check (mapError_eq_ok_iff.1 h)
  have hurl : ofText id.toUrl = ofUrl id.toUrl := ofText_eq_ofUrl (by rw [afterScheme?_toUrl]; rfl)
  exact ⟨ofColons_toColons_iff hc, ofText_toColons_eq_ok_iff hc, ofUrl_toUrl_iff hc,
    hurl ▸ ofUrl_toUrl_iff hc⟩

/-- The group `mvn` stands in the way of `ofText` only, a slash only in that of the url. -/
theorem make_restored_mvn :
    ∃ id, make "mvn" "a" "1" (some "x/y") none = .ok id ∧
      ofColons id.toColons = .ok id ∧ ofText id.toColons ≠ .ok id ∧
      ofUrl id.toUrl ≠ .ok id ∧ ofText id.toUrl ≠ .ok id := by
  have h : make "mvn" "a" "1" (some "x/y") none =
      .ok ⟨"mvn", "a", "1", "jar", some "x/y"⟩ := by decide
  obtain ⟨hcolons, hcolonText, hurl, hurlText⟩ := make_restored_iff h
  refine ⟨_, h, hcolons.2 (by decide), fun hback => (hcolonText.1 hback).2 rfl, ?_, ?_⟩
  · intro hback
    exact absurd (hurl.1 hback) (by decide)
  · intro hback
    exact absurd (hurlText.1 hback) (by decide)

/-! ## Texts that are accepted -/

/-- The reader gives an id for the text. -/
def Accepts (read : String → Except BuildError ArtifactId) (s : String) : Prop :=
  ∃ id, read s = .ok id

/-- `ofText` reads the text as one of the forms does, and refuses it only if both do. -/
structure ReadsEither (s : String) : Prop where
  accepts : Accepts ofColons s ∨ Accepts ofUrl s →
    ∃ id, ofText s = .ok id ∧ (ofColons s = .ok id ∨ ofUrl s = .ok id)
  refuses : ¬ Accepts ofColons s → ¬ Accepts ofUrl s → ¬ Accepts ofText s

theorem ofColons_or_ofUrl_of_ofText (h : ofText s = .ok id) :
    ofColons s = .ok id ∨ ofUrl s = .ok id := by
  rcases ofText_eq_or s with he | he
  · exact .inl (he ▸ h)
  · exact .inr (he ▸ h)

theorem not_accepts_ofText (hcolons : ¬ Accepts ofColons s) (hurl : ¬ Accepts ofUrl s) :
    ¬ Accepts ofText s := by
  rintro ⟨id, hid⟩
  rcases ofColons_or_ofUrl_of_ofText hid with hid | hid
  · exact hcolons ⟨id, hid⟩
  · exact hurl ⟨id, hid⟩

theorem readsEither_of_no_scheme (h : ¬ (afterScheme? s).isSome) : ReadsEither s := by
  refine ⟨?_, not_accepts_ofText⟩
  rw [ofText_eq_ofColons h]
  rintro (⟨id, hid⟩ | ⟨id, hid⟩)
  · exact ⟨id, hid, .inl hid⟩
  · exact absurd (isSome_afterScheme?_of_ofUrl hid) h

theorem readsEither_iff_of_scheme (h : (afterScheme? s).isSome) :
    ReadsEither s ↔ (Accepts ofColons s → Accepts ofUrl s) := by
  constructor
  · intro hreads hcolons
    obtain ⟨id, hid, -⟩ := hreads.accepts (.inl hcolons)
    exact ⟨id, ofText_eq_ofUrl h ▸ hid⟩
  · intro himp
    refine ⟨fun haccepts => ?_, not_accepts_ofText⟩
    obtain ⟨id, hid⟩ : Accepts ofUrl s := haccepts.elim himp fun hurl => hurl
    exact ⟨id, ofText_eq_ofUrl h ▸ hid, .inr hid⟩

/-- Either form is read, but for texts in the colon form that have the group `mvn` and are not
urls. -/
theorem readsEither_iff (s : String) :
    (∀ id, ofText s = .ok id → ofColons s = .ok id ∨ ofUrl s = .ok id) ∧
    (ReadsEither s ↔ ∀ id, ofColons s = .ok id → id.group = "mvn" → Accepts ofUrl s) := by
  refine ⟨fun _ => ofColons_or_ofUrl_of_ofText, ?_⟩
  by_cases h : (afterScheme? s).isSome
  · rw [readsEither_iff_of_scheme h]
    constructor
    · intro himp id hid _
      exact himp ⟨id, hid⟩
    · rintro hmvn ⟨id, hid⟩
      exact hmvn id hid ((group_eq_mvn_iff hid).2 h)
  · constructor
    · intro _ id hid hmvn
      exact absurd ((group_eq_mvn_iff hid).1 hmvn) h
    · intro _
      exact readsEither_of_no_scheme h

/-- A text that is a url as well as in the colon form is read as the url. -/
theorem readsEither_overlap :
    ofColons "mvn:g/a/1:x" = .ok ⟨"mvn", "g/a/1", "x", "jar", none⟩ ∧
    ofText "mvn:g/a/1:x" = .ok ⟨"g", "a", "1:x", "jar", none⟩ ∧
    ReadsEither "mvn:g/a/1:x" :=
  ⟨by decide, by decide,
    (readsEither_iff "mvn:g/a/1:x").2.2 fun _ _ _ => ⟨⟨"g", "a", "1:x", "jar", none⟩, by decide⟩⟩

/-- The colon form of a group `mvn` is refused, for having too few pieces of a url. -/
theorem not_readsEither_mvn :
    ofColons "mvn:a:1" = .ok ⟨"mvn", "a", "1", "jar", none⟩ ∧
    ofText "mvn:a:1" = .error (IdFault.slashPieceCount.report "mvn:a:1") ∧
    ¬ ReadsEither "mvn:a:1" := by
  have hcolons : ofColons "mvn:a:1" = .ok ⟨"mvn", "a", "1", "jar", none⟩ := by decide
  have htext : ofText "mvn:a:1" = .error (IdFault.slashPieceCount.report "mvn:a:1") := by decide
  refine ⟨hcolons, htext, fun h => ?_⟩
  obtain ⟨id, hid, -⟩ := h.accepts (.inl ⟨_, hcolons⟩)
  rw [htext] at hid
  cases hid

end FeatureMerge.ArtifactId
