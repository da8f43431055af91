import FeatureMerge.Blocks
import FeatureMerge.Proofs.Ascending

/-!
# Maps built entry by entry

Inserting entries under new keys appends them to a map, and sets blocks in their
places. A map of either kind is no more than its entries; `sorted` puts those of a
map in ascending order.
-/

namespace FeatureMerge

theorem Entries.insert_of_not_mem {key : String} {entries : List Entry}
    (h : key ∉ entries.map Prod.fst) (value : String) :
    insert key value entries = entries ++ [(key, value)] := by
  induction entries with
  | nil => rfl
  | cons e rest ih =>
    obtain ⟨k, v⟩ := e
    have hk : k ≠ key := fun he => h (he ▸ List.mem_cons_self)
    rw [insert, if_neg hk, ih fun hm => h (List.mem_cons_of_mem _ hm)]
    rfl

namespace Properties

theorem ext {m m' : Properties} (h : m.toList = m'.toList) : m = m' := by
  cases m
  cases m'
  cases h
  rfl

theorem toList_insertMany {m : Properties} {entries : List Entry}
    (h : ((m.toList ++ entries).map Prod.fst).Nodup) :
    (m.insertMany entries).toList = m.toList ++ entries := by
  induction entries generalizing m with
  | nil => simp
  | cons e rest ih =>
    have hfresh : e.1 ∉ m.toList.map Prod.fst := by
      intro hm
      rw [List.map_append, List.nodup_append] at h
      exact h.2.2 e.1 hm e.1 List.mem_cons_self rfl
    have hinsert : (m.insert e.1 e.2).toList = m.toList ++ [e] :=
      Entries.insert_of_not_mem hfresh e.2
    have hnodup : (((m.insert e.1 e.2).toList ++ rest).map Prod.fst).Nodup := by
      rw [hinsert, List.append_assoc]
      exact h
    rw [insertMany_cons, ih hnodup, hinsert, List.append_assoc]
    rfl

theorem toList_ofList {entries : List Entry} (h : (entries.map Prod.fst).Nodup) :
    (ofList entries).toList = entries :=
  toList_insertMany (m := empty) h

theorem ofList_toList (m : Properties) : ofList m.toList = m :=
  ext (toList_ofList m.nodup_keys)

/-! ## In order -/

def IsSorted (m : Properties) : Prop := Ascending.IsAscending m.toList

/-- The entries of the other map, in ascending order. -/
def Sorts (m' m : Properties) : Prop := m'.toList.Perm m.toList ∧ m'.IsSorted

def sorted (m : Properties) : Properties :=
  ⟨Ascending.ofList m.toList, (Ascending.isAscending_ofList m.toList).nodup_keys⟩

theorem sorts_sorted (m : Properties) : m.sorted.Sorts m :=
  ⟨Ascending.ofList_perm m.nodup_keys, Ascending.isAscending_ofList m.toList⟩

theorem sorted_eq_iff {m : Properties} : m.sorted = m ↔ m.IsSorted := by
  constructor
  · intro h
    rw [← h]
    exact (sorts_sorted m).2
  · intro h
    exact ext (Ascending.ofList_eq_self h)

theorem isSorted_empty : empty.IsSorted := Ascending.isAscending_nil

theorem eq_empty_of_isEmpty {m : Properties} (h : m.isEmpty = true) : m = empty :=
  ext (List.isEmpty_iff.1 h)

end Properties

namespace Blocks

theorem ext {b b' : Blocks} (h : b.toList = b'.toList) : b = b' := by
  cases b
  cases b'
  cases h
  rfl

theorem toList_setMany (b : Blocks) (blocks : List (String × Properties)) :
    (b.setMany blocks).toList = Ascending.insertMany b.toList blocks := by
  induction blocks generalizing b with
  | nil => rfl
  | cons e rest ih => exact ih (b.set e.1 e.2)

theorem toList_ofList {blocks : List (String × Properties)} (h : Ascending.IsAscending blocks) :
    (ofList blocks).toList = blocks := by
  rw [ofList, toList_setMany]
  exact Ascending.ofList_eq_self h

/-! ## In order -/

def sorted (b : Blocks) : Blocks :=
  ⟨b.toList.map (Prod.map id Properties.sorted), b.ascending.map Properties.sorted⟩

def IsSorted (b : Blocks) : Prop := ∀ e ∈ b.toList, e.2.IsSorted

theorem isSorted_empty : empty.IsSorted := List.forall_mem_nil _

theorem eq_empty_of_isEmpty {b : Blocks} (h : b.isEmpty = true) : b = empty :=
  ext (List.isEmpty_iff.1 h)

theorem sorted_eq_iff {b : Blocks} : b.sorted = b ↔ b.IsSorted := by
  have hlist : b.sorted = b ↔ b.toList.map (Prod.map id Properties.sorted) = b.toList.map id := by
    rw [List.map_id]
    exact ⟨congrArg toList, fun h => ext h⟩
  rw [hlist, List.map_eq_map_iff]
  constructor
  · intro h e he
    exact Properties.sorted_eq_iff.1 (congrArg Prod.snd (h e he))
  · intro h e he
    exact Prod.ext rfl (Properties.sorted_eq_iff.2 (h e he))

end Blocks

end FeatureMerge
