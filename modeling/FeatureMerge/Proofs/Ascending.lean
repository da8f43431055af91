import FeatureMerge.Ascending

/-!
# Entries put in order

`ofList` inserts entries one after another. Under distinct keys that only puts
them in order: `ofList_perm`, and nothing happens to entries that ascend.
-/

namespace FeatureMerge.Ascending

variable {α β : Type}

theorem lookup_eq_none_iff {key : String} {entries : List (String × α)} :
    entries.lookup key = none ↔ key ∉ entries.map Prod.fst := by
  induction entries with
  | nil => simp
  | cons e rest ih =>
    obtain ⟨k, a⟩ := e
    by_cases hk : key = k
    · simp [hk]
    · rw [List.lookup_cons, beq_eq_false_iff_ne.2 hk]
      simp [ih, hk]

theorem mem_of_lookup {key : String} {a : α} {entries : List (String × α)}
    (h : entries.lookup key = some a) : (key, a) ∈ entries := by
  obtain ⟨before, after, rfl, -⟩ := List.lookup_eq_some_iff.1 h
  exact List.mem_append_right _ List.mem_cons_self

theorem IsAscending.nodup_keys {entries : List (String × α)} (h : IsAscending entries) :
    (entries.map Prod.fst).Nodup := by
  refine List.Pairwise.imp (fun hlt => ?_) h
  rintro rfl
  exact String.lt_irrefl _ hlt

theorem IsAscending.map {entries : List (String × α)} (h : IsAscending entries) (f : α → β) :
    IsAscending (entries.map (Prod.map id f)) := by
  unfold IsAscending
  rw [List.map_map]
  exact h

theorem IsAscending.of_map {entries : List (String × α)} {f : α → β}
    (h : IsAscending (entries.map (Prod.map id f))) : IsAscending entries := by
  unfold IsAscending at h
  rw [List.map_map] at h
  exact h

/-- The order of the entries is determined by their keys. -/
theorem IsAscending.eq_of_perm {as bs : List (String × α)} (ha : IsAscending as)
    (hb : IsAscending bs) (h : as.Perm bs) : as = bs := by
  have ha : as.Pairwise fun x y => x.1 < y.1 := List.pairwise_map.1 ha
  have hb : bs.Pairwise fun x y => x.1 < y.1 := List.pairwise_map.1 hb
  refine List.Perm.eq_of_pairwise (fun x y _ _ hxy hyx => ?_) ha hb h
  exact absurd hyx (String.lt_asymm hxy)

/-! ## One entry -/

theorem perm_insert {key : String} {entries : List (String × α)}
    (h : key ∉ entries.map Prod.fst) (a : α) :
    (insert key a entries).Perm ((key, a) :: entries) := by
  induction entries with
  | nil => exact .refl _
  | cons e rest ih =>
    obtain ⟨k, b⟩ := e
    have hk : key ≠ k := fun he => h (he ▸ List.mem_cons_self)
    have hrest : key ∉ rest.map Prod.fst := fun hm => h (List.mem_cons_of_mem _ hm)
    rw [insert, if_neg hk]
    split
    · exact .refl _
    · exact ((ih hrest).cons (k, b)).trans (.swap _ _ _)

theorem mem_insert {key : String} {a : α} {entries : List (String × α)} {e : String × α}
    (h : e ∈ insert key a entries) : e = (key, a) ∨ e ∈ entries := by
  induction entries with
  | nil => exact .inl (List.mem_singleton.1 h)
  | cons e' rest ih =>
    obtain ⟨k, b⟩ := e'
    rw [insert] at h
    split at h
    · exact (List.mem_cons.1 h).imp_right (List.mem_cons_of_mem _)
    split at h
    · exact List.mem_cons.1 h
    · rcases List.mem_cons.1 h with rfl | h
      · exact .inr List.mem_cons_self
      · exact (ih h).imp_right (List.mem_cons_of_mem _)

/-- Of two entries with one key the later stays. -/
theorem insert_insert (key : String) (a b : α) (entries : List (String × α)) :
    insert key b (insert key a entries) = insert key b entries := by
  induction entries with
  | nil => simp [insert]
  | cons e rest ih =>
    obtain ⟨k, c⟩ := e
    by_cases hk : key = k
    · simp [insert, hk]
    · by_cases hlt : key < k
      · simp [insert, hk, hlt]
      · simp [insert, hk, hlt, ih]

theorem map_insert (f : α → β) (key : String) (a : α) (entries : List (String × α)) :
    (insert key a entries).map (Prod.map id f) =
      insert key (f a) (entries.map (Prod.map id f)) := by
  induction entries with
  | nil => rfl
  | cons e rest ih =>
    obtain ⟨k, b⟩ := e
    rw [insert, List.map_cons]
    show _ = insert key (f a) ((k, f b) :: rest.map (Prod.map id f))
    rw [insert]
    split
    · rfl
    split
    · rfl
    · rw [List.map_cons, ih]
      rfl

/-- Keys that are new remain so when another key is put in. -/
theorem lookup_insert_of_fresh {e : String × β} {rest : List (String × β)}
    {inner : List (String × α)} (hnodup : ((e :: rest).map Prod.fst).Nodup)
    (hfresh : ∀ e' ∈ e :: rest, inner.lookup e'.1 = none) (a : α) :
    ∀ e' ∈ rest, (insert e.1 a inner).lookup e'.1 = none := by
  intro e' he'
  rw [List.map_cons, List.nodup_cons] at hnodup
  have hne : e'.1 ≠ e.1 := fun he => hnodup.1 (he ▸ List.mem_map_of_mem he')
  rw [lookup_insert, if_neg hne]
  exact hfresh e' (List.mem_cons_of_mem _ he')

/-! ## Several entries -/

/-- Inserts entries one after another. -/
def insertMany (entries more : List (String × α)) : List (String × α) :=
  more.foldl (fun entries e => insert e.1 e.2 entries) entries

def ofList (entries : List (String × α)) : List (String × α) := insertMany [] entries

@[simp] theorem insertMany_nil (entries : List (String × α)) :
    insertMany entries [] = entries := rfl

@[simp] theorem insertMany_cons (entries : List (String × α)) (e : String × α)
    (more : List (String × α)) :
    insertMany entries (e :: more) = insertMany (insert e.1 e.2 entries) more := rfl

theorem IsAscending.insertMany {entries : List (String × α)} (h : IsAscending entries)
    (more : List (String × α)) : IsAscending (insertMany entries more) := by
  induction more generalizing entries with
  | nil => exact h
  | cons e more ih => exact ih (h.insert e.1 e.2)

theorem isAscending_ofList (entries : List (String × α)) : IsAscending (ofList entries) :=
  isAscending_nil.insertMany entries

theorem map_insertMany (f : α → β) (entries more : List (String × α)) :
    (insertMany entries more).map (Prod.map id f) =
      insertMany (entries.map (Prod.map id f)) (more.map (Prod.map id f)) := by
  induction more generalizing entries with
  | nil => rfl
  | cons e more ih =>
    rw [insertMany_cons, ih, map_insert]
    rfl

theorem map_ofList (f : α → β) (entries : List (String × α)) :
    (ofList entries).map (Prod.map id f) = ofList (entries.map (Prod.map id f)) :=
  map_insertMany f [] entries

theorem perm_insertMany {entries more : List (String × α)}
    (h : ((entries ++ more).map Prod.fst).Nodup) :
    (insertMany entries more).Perm (entries ++ more) := by
  induction more generalizing entries with
  | nil => simp
  | cons e more ih =>
    have hmiddle : (entries ++ e :: more).Perm (e :: entries ++ more) := List.perm_middle
    have hnodup := (hmiddle.map Prod.fst).nodup_iff.1 h
    have hfresh : e.1 ∉ entries.map Prod.fst := by
      rw [List.cons_append, List.map_cons, List.map_append, List.nodup_cons] at hnodup
      exact fun hm => hnodup.1 (List.mem_append_left _ hm)
    have hinsert : (insert e.1 e.2 entries).Perm (e :: entries) := perm_insert hfresh e.2
    have hkeys := ((hinsert.append_right more).map Prod.fst).nodup_iff.2 hnodup
    exact (ih hkeys).trans ((hinsert.append_right more).trans hmiddle.symm)

theorem ofList_perm {entries : List (String × α)} (h : (entries.map Prod.fst).Nodup) :
    (ofList entries).Perm entries :=
  perm_insertMany h

theorem ofList_eq_self {entries : List (String × α)} (h : IsAscending entries) :
    ofList entries = entries :=
  (isAscending_ofList entries).eq_of_perm h (ofList_perm h.nodup_keys)

end FeatureMerge.Ascending
