import FeatureMerge.Artifact.Text
import FeatureMerge.Proofs.Except
import FeatureMerge.Proofs.Text.Pieces

/-!
# Ids and their parts

A checked id has no empty part. An id that is read consists of pieces of the text, the
packaging apart, which may be the default one (`MadeOf.mem_parts`). The parts that a form
writes give the id back when they are read again (`ofColonPieces_colonParts`,
`ofUrlPieces_urlParts`). In the colon form it is the group `mvn` that passes for the scheme of
a url (`group_eq_mvn_iff`).
-/

namespace FeatureMerge.ArtifactId

open FeatureMerge.Text

/-- All parts, the packaging also where it is not written. -/
def parts (id : ArtifactId) : List String :=
  [id.group, id.name, id.version, id.packaging] ++ id.classifier.toList

/-- What stands between the colons of the colon form. -/
def colonParts (id : ArtifactId) : List String :=
  [id.group, id.name] ++ id.optionalParts ++ [id.version]

/-- What stands between the slashes of the url form. -/
def urlParts (id : ArtifactId) : List String :=
  [id.group, id.name, id.version] ++ id.optionalParts

/-- What holds of the default packaging holds of all parts if it holds of those written. -/
theorem forall_mem_urlParts_iff {P : String → Prop} (hP : P defaultPackaging) (id : ArtifactId) :
    (∀ part ∈ id.urlParts, P part) ↔ ∀ part ∈ id.parts, P part := by
  unfold urlParts parts optionalParts
  cases id.classifier with
  | some classifier => simp
  | none =>
    by_cases hd : id.packaging = defaultPackaging
    · simp [hd, hP]
    · simp [hd]

theorem forall_mem_colonParts_iff {P : String → Prop} (hP : P defaultPackaging)
    (id : ArtifactId) : (∀ part ∈ id.colonParts, P part) ↔ ∀ part ∈ id.parts, P part := by
  have hperm : id.colonParts.Perm id.urlParts := by
    unfold colonParts urlParts
    rw [List.append_assoc]
    exact List.Perm.append_left [id.group, id.name] List.perm_append_comm
  rw [← forall_mem_urlParts_iff hP]
  simp only [hperm.mem_iff]

/-! ## Checked ids -/

/-- No part is empty. -/
structure IsChecked (id : ArtifactId) : Prop where
  group_ne : id.group ≠ ""
  name_ne : id.name ≠ ""
  version_ne : id.version ≠ ""
  packaging_ne : id.packaging ≠ ""
  classifier_ne : id.classifier ≠ some ""

theorem nonempty?_ne (part : Option String) : nonempty? part ≠ some "" := by
  cases part with
  | none => simp [nonempty?]
  | some s => by_cases h : s = "" <;> simp [nonempty?, h]

theorem nonempty?_of_ne {s : String} (h : s ≠ "") : nonempty? (some s) = some s := by
  simp [nonempty?, h]

theorem mem_of_nonempty? {part : Option String} {s : String} (h : nonempty? part = some s) :
    part = some s := (Option.filter_eq_some_iff.1 h).1

theorem fault?_eq_none_iff (id : ArtifactId) :
    id.fault? = none ↔ id.group ≠ "" ∧ id.name ≠ "" ∧ id.version ≠ "" := by
  unfold fault?
  by_cases hg : id.group = ""
  · simp [hg]
  by_cases hn : id.name = ""
  · simp [hg, hn]
  by_cases hv : id.version = "" <;> simp [hg, hn, hv]

theorem check_eq_ok_iff {a b : ArtifactId} : a.check = .ok b ↔ a.fault? = none ∧ a = b := by
  unfold check
  cases a.fault? with
  | none => simp
  | some fault => simp

theorem IsChecked.check_eq {id : ArtifactId} (h : id.IsChecked) : id.check = .ok id :=
  check_eq_ok_iff.2 ⟨(fault?_eq_none_iff id).2 ⟨h.group_ne, h.name_ne, h.version_ne⟩, rfl⟩

theorem isChecked_of_check {group name version : String} {classifier packaging : Option String}
    {id : ArtifactId} (h : (ofParts group name version classifier packaging).check = .ok id) :
    id.IsChecked := by
  obtain ⟨hfault, rfl⟩ := check_eq_ok_iff.1 h
  obtain ⟨hg, hn, hv⟩ := (fault?_eq_none_iff _).1 hfault
  refine ⟨hg, hn, hv, ?_, nonempty?_ne classifier⟩
  show (nonempty? packaging).getD defaultPackaging ≠ ""
  cases hp : nonempty? packaging with
  | none => decide
  | some s =>
    intro he
    rw [Option.getD_some] at he
    exact nonempty?_ne packaging (he ▸ hp)

/-! ## Ids and their pieces -/

/-- The id is put together from some of the pieces. -/
def MadeOf (pieces : List String) (id : ArtifactId) : Prop :=
  ∃ group name version classifier packaging,
    (ofParts group name version classifier packaging).check = .ok id ∧
    ∀ part ∈ group :: name :: version :: (classifier.toList ++ packaging.toList), part ∈ pieces

theorem madeOf_of_ofColonPieces {pieces : List String} {id : ArtifactId}
    (h : ofColonPieces pieces = .ok id) : MadeOf pieces id := by
  unfold ofColonPieces at h
  split at h
  · exact ⟨_, _, _, _, _, h, by simp⟩
  · exact ⟨_, _, _, _, _, h, by simp⟩
  · exact ⟨_, _, _, _, _, h, by simp⟩
  · cases h

theorem madeOf_of_ofUrlPieces {pieces : List String} {id : ArtifactId}
    (h : ofUrlPieces pieces = .ok id) : MadeOf pieces id := by
  unfold ofUrlPieces at h
  split at h
  · exact ⟨_, _, _, _, _, h, by simp⟩
  · exact ⟨_, _, _, _, _, h, by simp⟩
  · exact ⟨_, _, _, _, _, h, by simp⟩
  · cases h

theorem MadeOf.isChecked {pieces : List String} {id : ArtifactId} (h : MadeOf pieces id) :
    id.IsChecked := by
  obtain ⟨_, _, _, _, _, hcheck, -⟩ := h
  exact isChecked_of_check hcheck

/-- The packaging may be the default one instead of a piece. -/
theorem MadeOf.mem_parts {pieces : List String} {id : ArtifactId} (h : MadeOf pieces id) :
    ∀ part ∈ id.parts, part ∈ pieces ∨ part = defaultPackaging := by
  obtain ⟨group, name, version, classifier, packaging, hcheck, hmem⟩ := h
  obtain ⟨-, rfl⟩ := check_eq_ok_iff.1 hcheck
  simp only [List.forall_mem_cons, List.forall_mem_append] at hmem
  obtain ⟨hgroup, hname, hversion, hclassifier, hpackaging⟩ := hmem
  simp only [parts, List.forall_mem_cons, List.forall_mem_append]
  refine ⟨⟨.inl hgroup, .inl hname, .inl hversion, ?_, nofun⟩, fun part hpart => .inl ?_⟩
  · show (nonempty? packaging).getD defaultPackaging ∈ pieces ∨ _
    cases hp : nonempty? packaging with
    | none => exact .inr (by simp [ofParts, hp])
    | some s => exact .inl (hpackaging s (by simp [mem_of_nonempty? hp]))
  · have hsome : nonempty? classifier = some part := Option.mem_toList.1 hpart
    exact hclassifier part (by simp [mem_of_nonempty? hsome])

theorem MadeOf.not_mem_parts {sep : Char} {s : String} {id : ArtifactId}
    (h : MadeOf (pieces sep s) id) (hsep : sep ∉ defaultPackaging.toList) :
    ∀ part ∈ id.parts, sep ∉ part.toList := by
  intro part hpart
  rcases h.mem_parts part hpart with hmem | rfl
  · exact not_mem_of_mem_pieces hmem
  · exact hsep

/-- The optional parts that are written are all that it takes to make the id again. -/
theorem IsChecked.check_ofParts {id : ArtifactId} (h : id.IsChecked) :
    (id.optionalParts = [] ∧ (ofParts id.group id.name id.version none none).check = .ok id) ∨
    (id.optionalParts = [id.packaging] ∧
      (ofParts id.group id.name id.version none (some id.packaging)).check = .ok id) ∨
    ∃ classifier, id.optionalParts = [id.packaging, classifier] ∧
      (ofParts id.group id.name id.version (some classifier) (some id.packaging)).check
        = .ok id := by
  have hp : nonempty? (some id.packaging) = some id.packaging := nonempty?_of_ne h.packaging_ne
  unfold optionalParts
  cases hc : id.classifier with
  | none =>
    by_cases hd : id.packaging = defaultPackaging
    · have hid : ofParts id.group id.name id.version none none = id := by
        show ArtifactId.mk id.group id.name id.version defaultPackaging none = id
        rw [← hd, ← hc]
      exact .inl ⟨if_pos hd, hid.symm ▸ h.check_eq⟩
    · have hid : ofParts id.group id.name id.version none (some id.packaging) = id := by
        simp only [ofParts, hp, Option.getD_some]
        rw [show nonempty? none = id.classifier from hc.symm]
      exact .inr (.inl ⟨if_neg hd, hid.symm ▸ h.check_eq⟩)
  | some classifier =>
    have hc' : nonempty? (some classifier) = some classifier :=
      nonempty?_of_ne fun he => h.classifier_ne (he ▸ hc)
    have hid : ofParts id.group id.name id.version (some classifier) (some id.packaging) = id := by
      simp only [ofParts, hp, hc', Option.getD_some]
      rw [← hc]
    exact .inr (.inr ⟨classifier, rfl, hid.symm ▸ h.check_eq⟩)

theorem ofColonPieces_colonParts {id : ArtifactId} (h : id.IsChecked) :
    ofColonPieces id.colonParts = .ok id := by
  unfold colonParts
  rcases h.check_ofParts with ⟨hopt, hcheck⟩ | ⟨hopt, hcheck⟩ | ⟨classifier, hopt, hcheck⟩
  · rw [hopt]
    exact hcheck
  · rw [hopt]
    exact hcheck
  · rw [hopt]
    exact hcheck

theorem ofUrlPieces_urlParts {id : ArtifactId} (h : id.IsChecked) :
    ofUrlPieces id.urlParts = .ok id := by
  unfold urlParts
  rcases h.check_ofParts with ⟨hopt, hcheck⟩ | ⟨hopt, hcheck⟩ | ⟨classifier, hopt, hcheck⟩
  · rw [hopt]
    exact hcheck
  · rw [hopt]
    exact hcheck
  · rw [hopt]
    exact hcheck

theorem exists_eq_cons_of_ofColonPieces {pieces : List String} {id : ArtifactId}
    (h : ofColonPieces pieces = .ok id) : ∃ name rest, pieces = id.group :: name :: rest := by
  unfold ofColonPieces at h
  split at h
  · exact ⟨_, _, by rw [← (check_eq_ok_iff.1 h).2]; rfl⟩
  · exact ⟨_, _, by rw [← (check_eq_ok_iff.1 h).2]; rfl⟩
  · exact ⟨_, _, by rw [← (check_eq_ok_iff.1 h).2]; rfl⟩
  · cases h

/-! ## Readers -/

section

variable {s : String} {id : ArtifactId}

theorem ofColons_eq_ok_iff : ofColons s = .ok id ↔ ofColonPieces (pieces ':' s) = .ok id :=
  mapError_eq_ok_iff

theorem ofUrl_eq_ok_iff :
    ofUrl s = .ok id ↔
      ∃ body, afterScheme? s = some body ∧ ofUrlPieces (pieces '/' body) = .ok id := by
  unfold ofUrl
  cases afterScheme? s with
  | none => simp
  | some body => simp [mapError_eq_ok_iff]

theorem ofText_eq_ofUrl (h : (afterScheme? s).isSome) : ofText s = ofUrl s := if_pos h

theorem ofText_eq_ofColons (h : ¬ (afterScheme? s).isSome) : ofText s = ofColons s := if_neg h

theorem ofText_eq_or (s : String) : ofText s = ofColons s ∨ ofText s = ofUrl s := by
  by_cases h : (afterScheme? s).isSome
  · exact .inr (ofText_eq_ofUrl h)
  · exact .inl (ofText_eq_ofColons h)

theorem ofText_of_scheme {body : String} (h : afterScheme? s = some body) :
    ofText s = .ok id ↔ ofUrlPieces (pieces '/' body) = .ok id := by
  rw [ofText_eq_ofUrl (by rw [h]; rfl), ofUrl_eq_ok_iff]
  simp [h]

theorem ofText_of_no_scheme (h : afterScheme? s = none) :
    ofText s = .ok id ↔ ofColonPieces (pieces ':' s) = .ok id := by
  rw [ofText_eq_ofColons (by simp [h]), ofColons_eq_ok_iff]

theorem isSome_afterScheme?_of_ofUrl (h : ofUrl s = .ok id) : (afterScheme? s).isSome := by
  obtain ⟨body, hbody, -⟩ := ofUrl_eq_ok_iff.1 h
  rw [hbody]
  rfl

/-- A text passes for a url when its first piece is `mvn`. -/
theorem isSome_afterScheme?_iff {first : String} (next : String) (rest : List String)
    (h : ':' ∉ first.toList) :
    (afterScheme? (joined ':' (first :: next :: rest))).isSome ↔ first = "mvn" := by
  have hmvn : scheme.toList = "mvn".toList ++ [':'] := rfl
  constructor
  · intro hsome
    obtain ⟨body, hbody⟩ := Option.isSome_iff_exists.1 hsome
    have htext := after?_eq_some_iff.1 hbody
    rw [toList_joined_cons, hmvn, List.append_assoc, List.singleton_append] at htext
    -- Both sides are cut at the first colon.
    have hcut := congrArg (List.splitOn ':') htext
    rw [List.splitOn_append_cons_self_of_not_mem h,
      List.splitOn_append_cons_self_of_not_mem (by decide)] at hcut
    exact String.toList_injective (List.cons.inj hcut).1
  · rintro rfl
    refine Option.isSome_iff_exists.2 ⟨joined ':' (next :: rest), after?_eq_some_iff.2 ?_⟩
    rw [toList_joined_cons, hmvn, List.append_assoc, List.singleton_append]

/-- The colon form has the scheme when it has the group `mvn`. -/
theorem group_eq_mvn_iff (h : ofColons s = .ok id) :
    id.group = "mvn" ↔ (afterScheme? s).isSome := by
  have hread := ofColons_eq_ok_iff.1 h
  have hgroup : ':' ∉ id.group.toList :=
    (madeOf_of_ofColonPieces hread).not_mem_parts (by decide) _ List.mem_cons_self
  obtain ⟨name, rest, hpieces⟩ := exists_eq_cons_of_ofColonPieces hread
  rw [← joined_pieces ':' s, hpieces]
  exact (isSome_afterScheme?_iff name rest hgroup).symm

end

end FeatureMerge.ArtifactId
