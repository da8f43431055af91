import FeatureMerge.Proofs.Dispatch.Contributions
import Mathlib.Data.List.Nodup

/-!
# Contributed lists of artifacts

A recorder adds to a list the artifacts that are not there yet, each once
(`Handler.mergeArtifacts_eq`). The list of the first contribution is taken as it is. So the list in
the end is the concatenation without repetitions exactly when the first one repeats nothing
(`MergeSource.mergeAll_concatenates`).
-/

namespace FeatureMerge

namespace Handler

/-! ## Adding artifacts -/

section

variable {existing incoming : List ArtifactId} {id : ArtifactId}

theorem mergeArtifacts_append (existing xs ys : List ArtifactId) :
    mergeArtifacts existing (xs ++ ys) = mergeArtifacts (mergeArtifacts existing xs) ys :=
  List.foldl_append

theorem mergeArtifacts_cons_of_mem (h : id ∈ existing) (incoming : List ArtifactId) :
    mergeArtifacts existing (id :: incoming) = mergeArtifacts existing incoming := by
  rw [mergeArtifacts, List.foldl_cons, if_pos h, mergeArtifacts]

theorem mergeArtifacts_cons_of_not_mem (h : id ∉ existing) (incoming : List ArtifactId) :
    mergeArtifacts existing (id :: incoming) = mergeArtifacts (existing ++ [id]) incoming := by
  rw [mergeArtifacts, List.foldl_cons, if_neg h, mergeArtifacts]

/-- What is there stays, and of the rest each artifact comes once. -/
theorem mergeArtifacts_eq (existing incoming : List ArtifactId) :
    mergeArtifacts existing incoming = existing ++ (incoming.removeAll existing).eraseDups := by
  -- Each artifact that is added is there for those behind it, so `existing` has to grow.
  induction incoming generalizing existing with
  | nil => simp [mergeArtifacts]
  | cons id incoming ih =>
    by_cases h : id ∈ existing
    · rw [mergeArtifacts_cons_of_mem h, ih, List.cons_removeAll, if_neg (by simp [h])]
    · have hfilter : incoming.removeAll (existing ++ [id]) =
          (incoming.removeAll existing).filter fun x => !x == id := by
        simp [List.removeAll, List.filter_filter, Bool.and_comm, Bool.beq_eq_decide_eq]
      rw [mergeArtifacts_cons_of_not_mem h, ih, List.cons_removeAll, if_pos (by simp [h]),
        List.eraseDups_cons, hfilter, List.append_assoc, List.singleton_append]

theorem mergeArtifacts_of_subset (h : incoming ⊆ existing) :
    mergeArtifacts existing incoming = existing := by
  have hnone : incoming.removeAll existing = [] := by
    simpa [List.removeAll] using fun id hid => h hid
  rw [mergeArtifacts_eq, hnone, List.eraseDups_nil, List.append_nil]

theorem mem_mergeArtifacts :
    id ∈ mergeArtifacts existing incoming ↔ id ∈ existing ∨ id ∈ incoming := by
  rw [mergeArtifacts_eq, List.mem_append, List.mem_eraseDups]
  by_cases h : id ∈ existing <;> simp [List.removeAll, h]

theorem nodup_mergeArtifacts (h : existing.Nodup) (incoming : List ArtifactId) :
    (mergeArtifacts existing incoming).Nodup := by
  induction incoming generalizing existing with
  | nil => exact h
  | cons id incoming ih =>
    by_cases hid : id ∈ existing
    · rw [mergeArtifacts_cons_of_mem hid]
      exact ih h
    · rw [mergeArtifacts_cons_of_not_mem hid]
      exact ih (List.concat_eq_append ▸ h.concat hid)

theorem nodup_mergeArtifacts_iff : (mergeArtifacts existing incoming).Nodup ↔ existing.Nodup := by
  refine ⟨fun h => ?_, fun h => nodup_mergeArtifacts h incoming⟩
  rw [mergeArtifacts_eq] at h
  exact (List.nodup_append.1 h).1

theorem mergeArtifacts_nil_left (ids : List ArtifactId) :
    mergeArtifacts [] ids = ids.eraseDups := by
  rw [mergeArtifacts_eq, List.removeAll_nil, List.nil_append]

theorem eraseDups_eq_self_iff {ids : List ArtifactId} : ids.eraseDups = ids ↔ ids.Nodup := by
  constructor
  · intro h
    rw [← h, ← mergeArtifacts_nil_left]
    exact nodup_mergeArtifacts .nil ids
  · intro h
    induction ids with
    | nil => rfl
    | cons id ids ih =>
      obtain ⟨hid, hids⟩ := List.nodup_cons.1 h
      have hfilter : (ids.filter fun x => !x == id) = ids := by
        refine List.filter_eq_self.2 fun x hx => ?_
        simpa using ne_of_mem_of_not_mem hx hid
      rw [List.eraseDups_cons, hfilter, ih hids]

/-- All repetitions are left out only if the list that is added to has none. -/
theorem mergeArtifacts_eq_eraseDups_iff :
    mergeArtifacts existing incoming = (existing ++ incoming).eraseDups ↔ existing.Nodup := by
  rw [mergeArtifacts_eq, List.eraseDups_append, List.append_left_inj, eq_comm,
    eraseDups_eq_self_iff]

end

/-! ## Several contributions -/

variable (configuration : Properties)

theorem combine_of_artifacts {e : Extension} (h : e.kind = .artifacts) (existing : Extension) :
    combine configuration e existing =
      { existing with artifacts := mergeArtifacts existing.artifacts e.artifacts } := by
  rw [combine, h]

theorem combineAll_of_artifacts {es : List Extension} (h : ∀ e ∈ es, e.kind = .artifacts)
    (existing : Extension) :
    combineAll configuration existing es =
      { existing with
        artifacts := mergeArtifacts existing.artifacts (es.flatMap (·.artifacts)) } := by
  induction es generalizing existing with
  | nil => rfl
  | cons e es ih =>
    obtain ⟨he, hes⟩ := List.forall_mem_cons.1 h
    rw [combineAll_cons, ih hes, combine_of_artifacts configuration he, List.flatMap_cons,
      mergeArtifacts_append]

/-- An extension that holds the artifacts of a contribution is not changed by it. -/
theorem place_of_subset {context : HandlerContext} (hphase : context.phase.isInitial = false)
    {target : Feature} {e existing : Extension} (hkind : e.kind = .artifacts)
    (hexisting : target.named e.name = [existing]) (hsubset : e.artifacts ⊆ existing.artifacts) :
    place context target e = target := by
  have hfirst : target.extension? e.name = some existing := target.extension?_of_named hexisting
  have hsame : combine context.configuration e existing = existing := by
    rw [combine_of_artifacts context.configuration hkind, mergeArtifacts_of_subset hsubset]
  obtain ⟨before, after, hsplit, hmodify⟩ :=
    target.exists_modifyExtension_eq (combine context.configuration e) hfirst
  rw [place_of_existing context hphase hfirst, hmodify, hsame, ← hsplit]

end Handler

/-! ## Merging them -/

namespace MergeSource

variable {c : MergeSource} {registered name : String}

/-- Recorders accept every contribution. The first list stays as it is, and the others add what is
not there yet, once each; so nothing is repeated exactly when the first list repeats nothing. A
contribution that is merged once more changes nothing. -/
theorem mergeAll_concatenates (target : Feature) {first : Contribution} {rest : List Contribution}
    (hrecords : ∀ x ∈ first :: rest, c.RecordsAs registered x.extension)
    (hname : ∀ x ∈ first :: rest, x.extension.name = name)
    (hkind : ∀ x ∈ first :: rest, x.extension.kind = .artifacts)
    (hfirst : first.phase.isInitial = true) (hrest : ∀ x ∈ rest, x.phase.isInitial = false) :
    let result := c.mergeAll target (first :: rest)
    let added := rest.flatMap (·.extension.artifacts)
    (∀ x ∈ first :: rest, ∀ f : Feature,
        (mergeExtension c x.phase f x.source x.extension).verdict = .merged) ∧
      (∃ ids, result.named name = [{ first.extension with artifacts := ids }] ∧
        ids = first.extension.artifacts ++ (added.removeAll first.extension.artifacts).eraseDups ∧
        (ids = (first.extension.artifacts ++ added).eraseDups ↔
          first.extension.artifacts.Nodup) ∧
        (ids.Nodup ↔ first.extension.artifacts.Nodup)) ∧
      ∀ x ∈ first :: rest, ∀ phase : Phase, phase.isInitial = false → ∀ source : Feature,
        (mergeExtension c phase result source x.extension).target = result := by
  intro result added
  obtain ⟨-, hkinds⟩ := List.forall_mem_cons.1 hkind
  have hnamed : result.named name = [{ first.extension with
      artifacts := Handler.mergeArtifacts first.extension.artifacts added }] := by
    rw [named_mergeAll target hrecords hname hfirst hrest,
      Handler.combineAll_of_artifacts _ (List.forall_mem_map.2 hkinds), List.flatMap_map]
  refine ⟨fun x hx f => (mergeExtension_of_recordsAs (hrecords x hx) _ _ _).1,
    ⟨_, hnamed, Handler.mergeArtifacts_eq _ _, Handler.mergeArtifacts_eq_eraseDups_iff,
      Handler.nodup_mergeArtifacts_iff⟩, fun x hx phase hphase source => ?_⟩
  rw [(mergeExtension_of_recordsAs (hrecords x hx) _ _ _).2]
  refine Handler.place_of_subset hphase (hkind x hx) (hname x hx ▸ hnamed) fun id hid => ?_
  rw [Handler.mem_mergeArtifacts]
  rcases List.mem_cons.1 hx with rfl | hx
  · exact .inl hid
  · exact .inr (List.mem_flatMap.2 ⟨x, hx, hid⟩)

/-- Repetitions within a list and across lists are left out. -/
theorem mergeAll_concatenates_overlap :
    let recorder := Handler.recorder 1 "recorder" ["x"] .shared
    let c : MergeSource :=
      { featureProvider := .none 0, mergeHandlers := ⟨[("r", recorder), ("s", recorder)]⟩ }
    let id (name : String) : ArtifactId := ⟨"g", name, "1", "jar", none⟩
    let x (names : List String) : Extension :=
      { name := "x", kind := .artifacts, artifacts := names.map id }
    let f := Feature.bare (id "f")
    let target := f.addExtension (x ["old"])
    let first : Contribution := ⟨.initial, f, x ["a", "b"]⟩
    let rest := [["b", "d", "d"], ["a", "e", "d"]].map fun names => ⟨.subsequent, f, x names⟩
    let result := c.mergeAll target (first :: rest)
    (∀ y ∈ first :: rest, c.RecordsAs "r" y.extension) ∧
    (∀ y ∈ first :: rest, y.extension.name = "x") ∧
    (∀ y ∈ first :: rest, y.extension.kind = .artifacts) ∧
    first.phase.isInitial = true ∧ (∀ y ∈ rest, y.phase.isInitial = false) ∧
    result.named "x" = [x ["a", "b", "d", "e"]] ∧
    (mergeExtension c (.prototype false) result f (x ["b", "d", "d"])).target = result := by
  intro recorder c id x f target first rest result
  have hrecords : ∀ y ∈ first :: rest, c.RecordsAs "r" y.extension := by
    have hx (names : List String) : c.RecordsAs "r" (x names) :=
      ⟨[], [("s", recorder)], 1, "recorder", ["x"], .shared, rfl, nofun, by simp [x]⟩
    simp [first, rest, hx]
  have hname : ∀ y ∈ first :: rest, y.extension.name = "x" := by simp [first, rest, x]
  have hkind : ∀ y ∈ first :: rest, y.extension.kind = .artifacts := by simp [first, rest, x]
  have hrest : ∀ y ∈ rest, y.phase.isInitial = false := by decide
  obtain ⟨-, ⟨ids, hnamed, hids, -⟩, hagain⟩ :=
    mergeAll_concatenates target hrecords hname hkind rfl hrest
  have hlist : ids = ["a", "b", "d", "e"].map id := hids.trans (by decide)
  refine ⟨hrecords, hname, hkind, rfl, hrest, by rw [hnamed, hlist], ?_⟩
  exact hagain ⟨.subsequent, f, x ["b", "d", "d"]⟩ (by simp [rest]) (.prototype false) rfl f

/-- A list that repeats an artifact is taken as it is, if it comes first. -/
theorem mergeAll_repeats_first :
    let recorder := Handler.recorder 1 "r" ["x"] .shared
    let c : MergeSource := { featureProvider := .none 0, mergeHandlers := ⟨[("r", recorder)]⟩ }
    let id : ArtifactId := ⟨"g", "a", "1", "jar", none⟩
    let x : Extension := { name := "x", kind := .artifacts, artifacts := [id, id] }
    let first : Contribution := ⟨.initial, .bare id, x⟩
    c.RecordsAs "r" x ∧ first.phase.isInitial = true ∧
    (c.mergeAll (.bare id) [first]).named "x" = [x] ∧
    ¬ x.artifacts.Nodup ∧ x.artifacts ≠ [id, id].eraseDups := by
  intro recorder c id x first
  refine ⟨⟨[], [], 1, "r", ["x"], .shared, rfl, nofun, ?_⟩, rfl, ?_, ?_, ?_⟩
  · simp [x]
  · decide
  · decide
  · decide

end MergeSource

end FeatureMerge
