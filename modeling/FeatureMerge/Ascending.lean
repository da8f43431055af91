/-!
# Entries in ascending order

Lists of entries under distinct texts, the smallest first. `insert` puts an
entry in its place, or replaces the one with an equal key.
-/

namespace FeatureMerge.Ascending

variable {α : Type}

def insert (key : String) (a : α) : List (String × α) → List (String × α)
  | [] => [(key, a)]
  | (k, b) :: rest =>
    if key = k then (key, a) :: rest
    else if key < k then (key, a) :: (k, b) :: rest
    else (k, b) :: insert key a rest

/-- The keys ascend, so none occurs twice. -/
def IsAscending (entries : List (String × α)) : Prop :=
  (entries.map Prod.fst).Pairwise (· < ·)

theorem isAscending_nil : IsAscending ([] : List (String × α)) := .nil

theorem mem_keys_insert {key k : String} {a : α} {entries : List (String × α)} :
    k ∈ (insert key a entries).map Prod.fst ↔ k = key ∨ k ∈ entries.map Prod.fst := by
  induction entries with
  | nil => simp [insert]
  | cons e rest ih =>
    obtain ⟨l, b⟩ := e
    simp only [insert]
    split
    · subst_vars
      simp
    · split
      · simp
      · simp only [List.map_cons, List.mem_cons, ih]
        grind

theorem lookup_insert (key k : String) (a : α) (entries : List (String × α)) :
    (insert key a entries).lookup k = if k = key then some a else entries.lookup k := by
  induction entries with
  | nil => grind [insert]
  | cons e rest ih => grind [insert]

theorem IsAscending.insert {entries : List (String × α)} (h : IsAscending entries)
    (key : String) (a : α) : IsAscending (insert key a entries) := by
  induction entries with
  | nil => simp [Ascending.insert, IsAscending]
  | cons e rest ih =>
    obtain ⟨l, b⟩ := e
    simp only [IsAscending, List.map_cons, List.pairwise_cons] at h
    simp only [Ascending.insert]
    split
    · subst_vars
      simpa [IsAscending] using h
    · split
      · simp only [IsAscending, List.map_cons, List.pairwise_cons, List.mem_cons]
        grind
      · simp only [IsAscending, List.map_cons, List.pairwise_cons]
        refine ⟨fun k hk => ?_, ih h.2⟩
        rcases mem_keys_insert.1 hk with rfl | hk
        · grind
        · exact h.1 k hk

end FeatureMerge.Ascending
