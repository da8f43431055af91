import FeatureMerge.Proofs.Artifact.Parts

/-!
# Reading back the colon form

`toColons` writes an id and `ofText` reads it. An id comes back unchanged exactly
when it is plain: no part holds a colon and the group is not `mvn`, which would
pass for the url scheme (`ofText_toColons_iff`). Every id read from the colon form
is plain. The url form admits ids that are not: `mvn:g:x/a/1` is written as
`g:x:a:1`, which names another artifact.
-/

namespace FeatureMerge.ArtifactId

open FeatureMerge.Text

/-- The colon form can be taken for no other id. -/
def IsPlain (id : ArtifactId) : Prop :=
  id.group ≠ "mvn" ∧ ∀ part ∈ id.colonParts, ':' ∉ part.toList

theorem toColons_eq (id : ArtifactId) :
    id.toColons = joined ':' (id.group :: id.name :: (id.optionalParts ++ [id.version])) := rfl

/-! ## Plain ids -/

theorem isPlain_of_ofColonPieces {s : String} {id : ArtifactId} (hs : afterScheme? s = none)
    (h : ofColonPieces (pieces ':' s) = .ok id) : id.IsPlain := by
  refine ⟨fun hmvn => ?_, ?_⟩
  · have hsome := (group_eq_mvn_iff (ofColons_eq_ok_iff.2 h)).1 hmvn
    rw [hs] at hsome
    cases hsome
  · rw [forall_mem_colonParts_iff (by decide)]
    exact (madeOf_of_ofColonPieces h).not_mem_parts (by decide)

theorem ofText_toColons_of_isPlain {id : ArtifactId} (hc : id.IsChecked) (hp : id.IsPlain) :
    ofText id.toColons = .ok id := by
  have hgroup : ':' ∉ id.group.toList := hp.2 id.group List.mem_cons_self
  have hnone : afterScheme? id.toColons = none := by
    rw [← Option.not_isSome_iff_eq_none, toColons_eq,
      isSome_afterScheme?_iff _ _ hgroup]
    exact hp.1
  have hpieces : pieces ':' id.toColons = id.colonParts :=
    pieces_joined (by simp) hp.2
  rw [ofText_of_no_scheme hnone, hpieces]
  exact ofColonPieces_colonParts hc

/-- Read as a url, the colon form of an id never gives that id. -/
theorem ofUrlPieces_toColons_ne {id : ArtifactId} {body : String}
    (hbody : afterScheme? id.toColons = some body) : ofUrlPieces (pieces '/' body) ≠ .ok id := by
  intro h
  have hparts : ∀ part ∈ id.colonParts, '/' ∉ part.toList := by
    rw [forall_mem_colonParts_iff (by decide)]
    exact (madeOf_of_ofUrlPieces h).not_mem_parts (by decide)
  have hslash : '/' ∉ body.toList := by
    intro hmem
    have htext : '/' ∈ id.toColons.toList := by
      rw [after?_eq_some_iff.1 hbody]
      exact List.mem_append_right _ hmem
    rcases mem_joined htext with he | ⟨part, hpart, hc⟩
    · cases he
    · exact hparts part hpart hc
  have hone : pieces '/' body = [body] := by
    unfold pieces
    rw [List.splitOn_eq_singleton hslash]
    simp
  rw [hone] at h
  cases h

/-! ## Round trip -/

/-- An id that has been read comes back from its colon form exactly when it is plain, and it is
plain when it was read from that form. -/
theorem ofText_toColons_iff {s : String} {id : ArtifactId} (h : ofText s = .ok id) :
    (ofText id.toColons = .ok id ↔
      id.group ≠ "mvn" ∧ ∀ part ∈ id.colonParts, ':' ∉ part.toList) ∧
    (afterScheme? s = none → ofText id.toColons = .ok id) := by
  have hc : id.IsChecked := by
    cases hs : afterScheme? s with
    | none => exact (madeOf_of_ofColonPieces ((ofText_of_no_scheme hs).1 h)).isChecked
    | some body => exact (madeOf_of_ofUrlPieces ((ofText_of_scheme hs).1 h)).isChecked
  refine ⟨⟨fun hback => ?_, ofText_toColons_of_isPlain hc⟩, fun hs => ?_⟩
  · cases hcol : afterScheme? id.toColons with
    | none => exact isPlain_of_ofColonPieces hcol ((ofText_of_no_scheme hcol).1 hback)
    | some body => exact absurd ((ofText_of_scheme hcol).1 hback) (ofUrlPieces_toColons_ne hcol)
  · exact ofText_toColons_of_isPlain hc
      (isPlain_of_ofColonPieces hs ((ofText_of_no_scheme hs).1 h))

theorem ofText_toColons_of_url :
    ∃ id, ofText "mvn:org.example/core/2.1/txt/docs" = .ok id ∧
      id.toColons = "org.example:core:txt:docs:2.1" ∧ ofText id.toColons = .ok id := by
  have h : ofText "mvn:org.example/core/2.1/txt/docs" =
      .ok ⟨"org.example", "core", "2.1", "txt", some "docs"⟩ := by decide
  refine ⟨_, h, by decide, (ofText_toColons_iff h).1.2 ⟨by decide, ?_⟩⟩
  decide

/-- A url may give a part that holds a colon, and then another artifact comes back. -/
theorem ofText_toColons_ne :
    ∃ id, ofText "mvn:g:x/a/1" = .ok id ∧ id.toColons = "g:x:a:1" ∧
      ofText id.toColons = .ok ⟨"g", "x", "1", "a", none⟩ ∧ ofText id.toColons ≠ .ok id := by
  refine ⟨⟨"g:x", "a", "1", "jar", none⟩, by decide, by decide, by decide, by decide⟩

end FeatureMerge.ArtifactId
