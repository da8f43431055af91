import FeatureMerge.Proofs.Artifact.Canonical
import FeatureMerge.Provider

/-!
# Places of artifacts

The path of a file ends with the name, the version and the file's name, none of which holds a slash
when the id comes from a url, and the group is what stands before them (`toPath_eq_iff`). The
file's name begins with the name and the version, and what follows tells by its first character
whether there is a classifier (`fileSuffix_eq_iff`). So two ids have one place exactly when they
differ at most in where a classifier ends and the packaging begins (`locate_eq_iff`).
-/

namespace FeatureMerge

namespace ArtifactId

open FeatureMerge.Text

variable {x y : ArtifactId}

/-! ## Groups -/

/-- Without slashes of its own a group can be read off its directory. -/
theorem map_groupDirectory {group : String} (h : '/' ∉ group.toList) :
    (groupDirectory group).toList.map (fun c => if c = '/' then '.' else c) = group.toList := by
  rw [groupDirectory, String.toList_ofList, List.map_map]
  conv_rhs => rw [← List.map_id group.toList]
  refine List.map_congr_left fun c hc => ?_
  have hslash : c ≠ '/' := ne_of_mem_of_not_mem hc h
  by_cases hdot : c = '.'
  · simp [hdot]
  · simp [hdot, hslash]

theorem groupDirectory_eq_iff {a b : String} (ha : '/' ∉ a.toList) (hb : '/' ∉ b.toList) :
    groupDirectory a = groupDirectory b ↔ a = b := by
  refine ⟨fun h => String.toList_injective ?_, congrArg groupDirectory⟩
  rw [← map_groupDirectory ha, h, map_groupDirectory hb]

/-! ## Files -/

/-- What stands behind name and version in the name of the file. -/
def fileSuffix (id : ArtifactId) : String :=
  match id.classifier with
  | some classifier => "-" ++ (classifier ++ "." ++ id.packaging)
  | none => "." ++ id.packaging

theorem fileName_eq (id : ArtifactId) :
    id.fileName = id.name ++ "-" ++ id.version ++ id.fileSuffix := by
  unfold fileName fileSuffix
  cases id.classifier with
  | none => exact String.append_assoc
  | some classifier => simp [toString, String.append_assoc]

/-- Both ids have a classifier or none has, and their packagings are equal, or it is the classifiers
with the packagings behind them. -/
def SharesSuffix (x y : ArtifactId) : Prop :=
  match x.classifier, y.classifier with
  | none, none => x.packaging = y.packaging
  | some a, some b => a ++ "." ++ x.packaging = b ++ "." ++ y.packaging
  | _, _ => False

/-- The ids differ at most in where the classifier ends and the packaging begins. -/
structure SharesFile (x y : ArtifactId) : Prop where
  group_eq : x.group = y.group
  name_eq : x.name = y.name
  version_eq : x.version = y.version
  suffix : x.SharesSuffix y

theorem fileSuffix_eq_iff : x.fileSuffix = y.fileSuffix ↔ x.SharesSuffix y := by
  have hstart (s t : String) : "-" ++ s ≠ "." ++ t := fun h => by
    simpa using congrArg String.toList h
  unfold fileSuffix SharesSuffix
  cases x.classifier with
  | none =>
    cases y.classifier with
    | none => exact String.append_right_inj "."
    | some b => exact iff_false_intro (hstart _ _).symm
  | some a =>
    cases y.classifier with
    | none => exact iff_false_intro (hstart _ _)
    | some b => exact String.append_right_inj "-"

theorem SharesFile.eq_of_classifier (h : x.SharesFile y) (hnone : x.classifier = none) : x = y := by
  obtain ⟨hgroup, hname, hversion, hsuffix⟩ := h
  obtain ⟨group, name, version, packaging, classifier⟩ := x
  obtain ⟨group', name', version', packaging', classifier'⟩ := y
  obtain rfl : classifier = none := hnone
  cases classifier' with
  | none =>
    obtain rfl : group = group' := hgroup
    obtain rfl : name = name' := hname
    obtain rfl : version = version' := hversion
    obtain rfl : packaging = packaging' := hsuffix
    rfl
  | some b => exact hsuffix.elim

/-! ## Paths -/

theorem toList_toPath (id : ArtifactId) :
    id.toPath.toList =
      (((groupDirectory id.group).toList ++ '/' :: id.name.toList) ++ '/' :: id.version.toList) ++
        '/' :: id.fileName.toList := by
  simp [toPath, joined]

theorem not_mem_fileName {id : ArtifactId} (h : ∀ part ∈ id.parts, '/' ∉ part.toList) :
    '/' ∉ id.fileName.toList := by
  rw [fileName_eq, fileSuffix]
  simp only [parts, List.forall_mem_append, List.forall_mem_cons] at h
  obtain ⟨⟨-, hname, hversion, hpackaging, -⟩, hclassifier⟩ := h
  cases hc : id.classifier with
  | none => simp [hname, hversion, hpackaging]
  | some classifier =>
    have hslash : '/' ∉ classifier.toList := hclassifier classifier (by simp [hc])
    simp [hname, hversion, hpackaging, hslash]

/-- A path is cut at its last three slashes. -/
theorem toPath_eq_iff (hx : ∀ part ∈ x.parts, '/' ∉ part.toList)
    (hy : ∀ part ∈ y.parts, '/' ∉ part.toList) : x.toPath = y.toPath ↔ x.SharesFile y := by
  have hgroup : groupDirectory x.group = groupDirectory y.group ↔ x.group = y.group :=
    groupDirectory_eq_iff (hx _ (by simp [parts])) (hy _ (by simp [parts]))
  have hname : '/' ∉ x.name.toList ∧ '/' ∉ y.name.toList :=
    ⟨hx _ (by simp [parts]), hy _ (by simp [parts])⟩
  have hversion : '/' ∉ x.version.toList ∧ '/' ∉ y.version.toList :=
    ⟨hx _ (by simp [parts]), hy _ (by simp [parts])⟩
  -- The group may hold more slashes in its directory, so the parts are taken off from the end.
  rw [← String.toList_inj, toList_toPath, toList_toPath,
    append_cons_inj (not_mem_fileName hx) (not_mem_fileName hy),
    append_cons_inj hversion.1 hversion.2, append_cons_inj hname.1 hname.2,
    String.toList_inj, String.toList_inj, String.toList_inj, String.toList_inj, hgroup,
    fileName_eq, fileName_eq]
  constructor
  · rintro ⟨⟨⟨hgroup, hname⟩, hversion⟩, hfile⟩
    rw [hname, hversion, String.append_right_inj] at hfile
    exact ⟨hgroup, hname, hversion, fileSuffix_eq_iff.1 hfile⟩
  · rintro ⟨hgroup, hname, hversion, hsuffix⟩
    rw [fileSuffix_eq_iff.2 hsuffix, hname, hversion]
    exact ⟨⟨⟨hgroup, rfl⟩, rfl⟩, rfl⟩

end ArtifactId

/-! ## Repositories -/

namespace ArtifactProvider

theorem trimRoot_append_slashes (root : String) (n : Nat) :
    trimRoot (root ++ String.ofList (List.replicate n '/')) = trimRoot root := by
  have hslashes : ∀ c ∈ List.replicate n '/', decide (c = '/') = true := by
    intro c hc
    rw [List.eq_of_mem_replicate hc]
    rfl
  rw [trimRoot, String.toList_append, String.toList_ofList, List.reverse_append,
    List.reverse_replicate, List.dropWhile_append_of_pos hslashes, trimRoot]

theorem locate_repository {known : List ArtifactId} {id : ArtifactId} (h : id ∈ known) (tag : Tag)
    (root : String) : (repository tag root known).locate id = some (place root id) := if_pos h

/-- Ids of urls have one place in a repository exactly when they share their file, and it does not
matter how many slashes end the root. -/
theorem locate_eq_iff {s t : String} {x y : ArtifactId} (hx : ArtifactId.ofUrl s = .ok x)
    (hy : ArtifactId.ofUrl t = .ok y) (tag : Tag) (root : String) {known : List ArtifactId}
    (hxk : x ∈ known) (hyk : y ∈ known) :
    let provider := repository tag root known
    (∃ p q, provider.locate x = some p ∧ provider.locate y = some q ∧ (p = q ↔ x.SharesFile y)) ∧
      (x.classifier = none → provider.locate x = provider.locate y → x = y) ∧
      ∀ tag' n, (repository tag' (root ++ String.ofList (List.replicate n '/')) known).locate =
        provider.locate := by
  intro provider
  have hxs : ∀ part ∈ x.parts, '/' ∉ part.toList :=
    ArtifactId.Form.not_mem_parts_of_read (show ArtifactId.Form.url.read s = .ok x from hx)
  have hys : ∀ part ∈ y.parts, '/' ∉ part.toList :=
    ArtifactId.Form.not_mem_parts_of_read (show ArtifactId.Form.url.read t = .ok y from hy)
  have hlx : provider.locate x = some (place root x) := locate_repository hxk tag root
  have hly : provider.locate y = some (place root y) := locate_repository hyk tag root
  have hplace : place root x = place root y ↔ x.SharesFile y := by
    rw [place, place, String.append_right_inj, ArtifactId.toPath_eq_iff hxs hys]
  refine ⟨⟨_, _, hlx, hly, hplace⟩, fun hnone hsame => ?_, fun tag' n => ?_⟩
  · rw [hlx, hly, Option.some.injEq, hplace] at hsame
    exact hsame.eq_of_classifier hnone
  · funext id
    show (if id ∈ known then some (place _ id) else none) = if id ∈ known then _ else none
    rw [place, trimRoot_append_slashes, place]

/-- The dot of `c.tar` may as well belong to the packaging. -/
theorem locate_eq_iff_tar :
    ∃ x y : ArtifactId, ArtifactId.ofUrl "mvn:org.a/lib/1.0/jar/c.tar" = .ok x ∧
      ArtifactId.ofUrl "mvn:org.a/lib/1.0/tar.jar/c" = .ok y ∧ x ≠ y ∧
      let provider := repository 1 "https://repo.example.org//" [y, x]
      provider.locate x = some "https://repo.example.org/org/a/lib/1.0/lib-1.0-c.tar.jar" ∧
      provider.locate y = provider.locate x ∧
      (repository 2 "https://repo.example.org///" [y, x]).locate = provider.locate := by
  have hx : ArtifactId.ofUrl "mvn:org.a/lib/1.0/jar/c.tar" =
      .ok ⟨"org.a", "lib", "1.0", "jar", some "c.tar"⟩ := by decide
  have hy : ArtifactId.ofUrl "mvn:org.a/lib/1.0/tar.jar/c" =
      .ok ⟨"org.a", "lib", "1.0", "tar.jar", some "c"⟩ := by decide
  obtain ⟨⟨p, q, hp, hq, hpq⟩, -, hslashes⟩ :=
    locate_eq_iff hy hx 1 "https://repo.example.org//" (.head _) (.tail _ (.head _))
  have hsuffix : "c" ++ "." ++ "tar.jar" = "c.tar" ++ "." ++ "jar" := by decide
  refine ⟨_, _, hx, hy, by decide, by decide, ?_, hslashes 2 1⟩
  rw [hp, hq, hpq.2 ⟨rfl, rfl, rfl, hsuffix⟩]

end ArtifactProvider

end FeatureMerge
