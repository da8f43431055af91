import FeatureMerge.Policy
import FeatureMerge.Proofs.Version.Numerals

/-!
# Selection among many versions

`selectAll?` picks one id of a list by keeping one of two at a time, from the
left. `Leads best ids` is what such a run keeps: versions before `best` are
lower and none after it is higher. Hence the first of the highest versions wins,
in whatever groups the list is worked off.
-/

namespace FeatureMerge.MergeAlgorithm

open Std Version

/-- The id that is kept of a list, the first one to start with. -/
def selectAll? (algorithm : MergeAlgorithm) : List ArtifactId → Option ArtifactId
  | [] => none
  | id :: ids => some (ids.foldl algorithm.select id)

/-- The id is one of the list, and none of the list exceeds it. -/
def IsHighest (ids : List ArtifactId) (id : ArtifactId) : Prop :=
  id ∈ ids ∧ ∀ other ∈ ids, (compareVersions other.version id.version).isLE

/-- `best` stands in the list, lower versions before it and none higher behind. -/
def Leads (best : ArtifactId) (ids : List ArtifactId) : Prop :=
  ∃ before after, ids = before ++ best :: after ∧
    (∀ x ∈ before, compareVersions x.version best.version = .lt) ∧
    (∀ x ∈ after, (compareVersions x.version best.version).isLE)

/-! ## The highest version -/

theorem leads_singleton (id : ArtifactId) : Leads id [id] :=
  ⟨[], [], rfl, by simp, by simp⟩

theorem Leads.isLE {best : ArtifactId} {ids : List ArtifactId} (h : Leads best ids) :
    ∀ x ∈ ids, (compareVersions x.version best.version).isLE := by
  obtain ⟨before, after, rfl, hb, ha⟩ := h
  intro x hx
  rcases List.mem_append.1 hx with hx | hx
  · exact Ordering.isLE_of_eq_lt (hb x hx)
  · rcases List.mem_cons.1 hx with rfl | hx
    · exact ReflCmp.isLE_rfl
    · exact ha x hx

theorem Leads.isHighest {best : ArtifactId} {ids : List ArtifactId} (h : Leads best ids) :
    IsHighest ids best := by
  refine ⟨?_, h.isLE⟩
  obtain ⟨before, after, rfl, -, -⟩ := h
  simp

/-- One more id either takes the lead or joins those behind. -/
theorem Leads.select {best : ArtifactId} {ids : List ArtifactId} (h : Leads best ids)
    (next : ArtifactId) : Leads (highest.select best next) (ids ++ [next]) := by
  by_cases hgt : compareVersions next.version best.version = .gt
  · have hlt : compareVersions best.version next.version = .lt := OrientedCmp.lt_of_gt hgt
    have hsel : highest.select best next = next := if_pos hgt
    rw [hsel]
    refine ⟨ids, [], rfl, fun x hx => ?_, by simp⟩
    exact TransCmp.lt_of_isLE_of_lt (h.isLE x hx) hlt
  · have hsel : highest.select best next = best := if_neg hgt
    have hle : (compareVersions next.version best.version).isLE := Ordering.ne_gt_iff_isLE.1 hgt
    obtain ⟨before, after, rfl, hb, ha⟩ := h
    rw [hsel]
    refine ⟨before, after ++ [next], by simp, hb, fun x hx => ?_⟩
    rcases List.mem_append.1 hx with hx | hx
    · exact ha x hx
    · rw [List.mem_singleton.1 hx]
      exact hle

theorem Leads.foldl {best : ArtifactId} {ids : List ArtifactId} (h : Leads best ids)
    (rest : List ArtifactId) : Leads (rest.foldl highest.select best) (ids ++ rest) := by
  induction rest generalizing best ids with
  | nil => simpa using h
  | cons next rest ih =>
    have hstep := ih (h.select next)
    rwa [List.append_assoc] at hstep

theorem exists_leads_selectAll? {ids : List ArtifactId} (h : ids ≠ []) :
    ∃ best, highest.selectAll? ids = some best ∧ Leads best ids := by
  cases ids with
  | nil => exact absurd rfl h
  | cons id ids => exact ⟨_, rfl, (leads_singleton id).foldl ids⟩

/-- Whoever stands before the leader is not among the highest. -/
theorem Leads.exists_first {best : ArtifactId} {ids : List ArtifactId} (h : Leads best ids) :
    ∃ before after, ids = before ++ best :: after ∧ ∀ x ∈ before, ¬ IsHighest ids x := by
  obtain ⟨before, after, hids, hb, -⟩ := h
  refine ⟨before, after, hids, fun x hx hhigh => ?_⟩
  have hle := hhigh.2 best (by simp [hids])
  exact OrientedCmp.not_isLE_of_lt (hb x hx) hle

/-- The order of the list decides only between ids that tie. -/
theorem IsHighest.compare_eq {ids ids' : List ArtifactId} {a b : ArtifactId} (hp : ids.Perm ids')
    (ha : IsHighest ids a) (hb : IsHighest ids' b) :
    compareVersions a.version b.version = .eq :=
  OrientedCmp.isLE_antisymm (hb.2 a (hp.mem_iff.1 ha.1)) (ha.2 b (hp.mem_iff.2 hb.1))

/-! ## Groups -/

theorem select_highest_assoc (a b c : ArtifactId) :
    highest.select (highest.select a b) c = highest.select a (highest.select b c) := by
  simp only [MergeAlgorithm.select]
  by_cases hab : compareVersions b.version a.version = .gt
  · by_cases hbc : compareVersions c.version b.version = .gt
    · have hac : compareVersions c.version a.version = .gt := TransCmp.gt_trans hbc hab
      simp [hab, hbc, hac]
    · simp [hab, hbc]
  · by_cases hbc : compareVersions c.version b.version = .gt
    · simp [hab, hbc]
    · have hac : ¬ compareVersions c.version a.version = .gt := by
        rw [Ordering.ne_gt_iff_isLE] at hab hbc ⊢
        exact TransCmp.isLE_trans hbc hab
      simp [hab, hbc, hac]

instance (algorithm : MergeAlgorithm) : Std.Associative algorithm.select where
  assoc := by
    cases algorithm with
    | latest => exact fun _ _ _ => rfl
    | highest => exact select_highest_assoc

theorem selectAll?_append (algorithm : MergeAlgorithm) (as bs : List ArtifactId) :
    algorithm.selectAll? (as ++ bs) =
      (algorithm.selectAll? as).merge algorithm.select (algorithm.selectAll? bs) := by
  cases as with
  | nil => exact Option.merge_none_left.symm
  | cons a as =>
    cases bs with
    | nil => simp [selectAll?]
    | cons b bs =>
      simp only [List.cons_append, selectAll?, List.foldl_append, List.foldl_cons,
        Option.merge_some_some]
      rw [List.foldl_assoc]

/-- The winners of the groups, in order, have the winner of the whole list. -/
theorem selectAll?_flatten (algorithm : MergeAlgorithm) {groups : List (List ArtifactId)}
    (h : ∀ g ∈ groups, g ≠ []) :
    ∃ winners, groups.mapM algorithm.selectAll? = some winners ∧
      algorithm.selectAll? winners = algorithm.selectAll? groups.flatten := by
  induction groups with
  | nil => exact ⟨[], rfl, rfl⟩
  | cons g groups ih =>
    obtain ⟨winners, hw, hflat⟩ := ih fun g hg => h g (List.mem_cons_of_mem _ hg)
    cases g with
    | nil => exact absurd rfl (h [] List.mem_cons_self)
    | cons id ids =>
      let w := ids.foldl algorithm.select id
      refine ⟨w :: winners, ?_, ?_⟩
      · rw [List.mapM_cons, hw]
        rfl
      · rw [List.flatten_cons, selectAll?_append, ← hflat]
        exact selectAll?_append algorithm [w] winners

theorem selectAll?_latest (ids : List ArtifactId) : latest.selectAll? ids = ids.getLast? := by
  cases ids with
  | nil => rfl
  | cons id ids =>
    rw [selectAll?]
    induction ids generalizing id with
    | nil => rfl
    | cons next ids ih => rw [List.foldl_cons, List.getLast?_cons_cons, ← ih next]; rfl

/-! ## Whole merges -/

/-- What a merge keeps of a list of ids, by either algorithm and in any groups. -/
theorem selectAll?_merge (ids : List ArtifactId) (h : ids ≠ []) :
    (∃ best, highest.selectAll? ids = some best ∧ IsHighest ids best ∧
      (∃ before after, ids = before ++ best :: after ∧ ∀ x ∈ before, ¬ IsHighest ids x) ∧
      ∀ ids', ids'.Perm ids → ∃ best', highest.selectAll? ids' = some best' ∧
        compareVersions best'.version best.version = .eq) ∧
    latest.selectAll? ids = some (ids.getLast h) ∧
    ∀ (algorithm : MergeAlgorithm) (groups : List (List ArtifactId)), groups.flatten = ids →
      (∀ g ∈ groups, g ≠ []) → ∃ winners, groups.mapM algorithm.selectAll? = some winners ∧
        algorithm.selectAll? winners = algorithm.selectAll? ids := by
  obtain ⟨best, hbest, hleads⟩ := exists_leads_selectAll? h
  refine ⟨⟨best, hbest, hleads.isHighest, hleads.exists_first, ?_⟩, ?_, ?_⟩
  · intro ids' hp
    have h' : ids' ≠ [] := fun he => h (List.nil_perm.1 (he ▸ hp))
    obtain ⟨best', hbest', hleads'⟩ := exists_leads_selectAll? h'
    exact ⟨best', hbest', hleads'.isHighest.compare_eq hp hleads.isHighest⟩
  · rw [selectAll?_latest, List.getLast?_eq_some_getLast h]
  · rintro algorithm groups rfl hg
    exact selectAll?_flatten algorithm hg

/-- Of `1.0` and `v1.0.0`, which tie above `0.9`, the first is kept. -/
theorem selectAll?_merge_tied :
    let ids := ["0.9", "1.0", "v1.0.0"].map fun v => ArtifactId.ofParts "g" "a" v none none
    ids ≠ [] ∧ highest.selectAll? ids = ids[1]? ∧
      ∃ best, highest.selectAll? ids = some best ∧ IsHighest ids best ∧
        ∃ before after, ids = before ++ best :: after ∧ ∀ x ∈ before, ¬ IsHighest ids x := by
  intro ids
  have hne : ids ≠ [] := by decide
  have hhigher : compareVersions "1.0" "0.9" = .gt :=
    (compareVersions_decimals_eq (x := [1, 0]) (y := [0, 9]) (by decide) (by decide)).trans
      (by decide)
  have hv : Key.ofVersion "v1.0.0" = Key.ofVersion "1.0.0" := by
    rw [Key.ofVersion_of_v rfl, Key.ofVersion_of_ne_v (by decide)]
    rfl
  have htie : compareVersions "v1.0.0" "1.0" = .eq := by
    rw [compareVersions, hv]
    exact (compareVersions_decimals_eq (x := [1, 0, 0]) (y := [1, 0]) (by decide)
      (by decide)).trans (by decide)
  have hsecond : highest.selectAll? ids = ids[1]? := by
    simp [ids, selectAll?, MergeAlgorithm.select, ArtifactId.ofParts, hhigher, htie]
  obtain ⟨best, hbest, hhigh, hfirst, -⟩ := (selectAll?_merge ids hne).1
  exact ⟨hne, hsecond, best, hbest, hhigh, hfirst⟩

end FeatureMerge.MergeAlgorithm
