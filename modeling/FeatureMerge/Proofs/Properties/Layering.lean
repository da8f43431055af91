import FeatureMerge.Proofs.Lookup
import FeatureMerge.Proofs.Properties.Positions
import Mathlib.Data.List.Induction

/-!
# Layers

A map is its keys in their order and the text under each (`ext_get?`). Layering one map over
another keeps the keys below in their places and appends those that are new. So layers can be
grouped in any way, and a list of entries may be cut anywhere and its pieces layered
(`layering`).
-/

namespace FeatureMerge.Properties

variable {m n : Properties}

/-! ## Keys and look-ups -/

theorem get?_eq_some_of_mem {e : Entry} (h : e ∈ m.toList) : m.get? e.1 = some e.2 :=
  (lookup_eq_some_iff_mem m.nodup_keys).2 h

theorem toList_eq_map_keys (m : Properties) :
    m.toList = m.keys.map fun key => (key, (m.get? key).getD "") := by
  have hentry : ∀ e ∈ m.toList, (e.1, (m.get? e.1).getD "") = e := by
    intro e he
    rw [get?_eq_some_of_mem he]
    rfl
  rw [keys, List.map_map]
  exact (List.map_id' _).symm.trans (List.map_congr_left fun e he => (hentry e he).symm)

theorem ext_get? (hkeys : m.keys = n.keys) (hget : ∀ key, m.get? key = n.get? key) : m = n := by
  apply ext
  rw [toList_eq_map_keys m, toList_eq_map_keys n, hkeys]
  simp only [hget]

theorem keys_insertMany {entries : List Entry} (h : (entries.map Prod.fst).Nodup)
    (m : Properties) : (m.insertMany entries).keys =
      m.keys ++ (entries.map Prod.fst).filter (· ∉ m.keys) := by
  induction entries generalizing m with
  | nil => simp
  | cons e rest ih =>
    obtain ⟨hfresh, hrest⟩ := List.nodup_cons.1 h
    rw [insertMany_cons, ih hrest, keys_insert, List.map_cons]
    split
    · rename_i hmem
      rw [List.filter_cons_of_neg (by simpa using hmem)]
    · rename_i hmem
      have hfilter : (rest.map Prod.fst).filter (· ∉ m.keys ++ [e.1]) =
          (rest.map Prod.fst).filter (· ∉ m.keys) := by
        refine List.filter_congr fun key hkey => ?_
        have hne : key ≠ e.1 := fun he => hfresh (he ▸ hkey)
        simp [hne]
      rw [List.filter_cons_of_pos (by simpa using hmem), hfilter, List.append_assoc]
      rfl

theorem keys_insertAll (m source : Properties) :
    (m.insertAll source).keys = m.keys ++ source.keys.filter (· ∉ m.keys) :=
  keys_insertMany source.nodup_keys m

/-! ## Regrouping -/

/-- A key that is put on top may as well be put into the upper layer. -/
theorem insertAll_insert (m source : Properties) (key value : String) :
    m.insertAll (source.insert key value) = (m.insertAll source).insert key value := by
  refine ext_get? ?_ fun k => ?_
  · rw [keys_insertAll, keys_insert, keys_insert, keys_insertAll]
    by_cases hs : key ∈ source.keys
    · have hmem : key ∈ m.keys ++ source.keys.filter (· ∉ m.keys) := by
        by_cases hm : key ∈ m.keys <;> simp [hs, hm]
      rw [if_pos hs, if_pos hmem]
    · rw [if_neg hs, List.filter_append]
      by_cases hm : key ∈ m.keys
      · simp [hm]
      · simp [hs, hm]
  · rw [get?_insertAll, get?_insert, get?_insert, get?_insertAll]
    split <;> rfl

theorem insertAll_ofList (m : Properties) (entries : List Entry) :
    m.insertAll (ofList entries) = m.insertMany entries := by
  induction entries using List.reverseRecOn with
  | nil => rfl
  | append_singleton entries e ih =>
    show m.insertAll (empty.insertMany (entries ++ [e])) = _
    rw [insertMany_append, insertMany_append, ← ih]
    exact insertAll_insert m (ofList entries) e.1 e.2

theorem ofList_append (front back : List Entry) :
    ofList (front ++ back) = (ofList front).insertAll (ofList back) := by
  rw [insertAll_ofList, ofList, insertMany_append]
  rfl

theorem insertAll_assoc (a b c : Properties) :
    (a.insertAll b).insertAll c = a.insertAll (b.insertAll c) := by
  have hbc : b.insertAll c = ofList (b.toList ++ c.toList) := by
    rw [ofList_append, ofList_toList, ofList_toList]
  rw [hbc, insertAll_ofList, insertMany_append]
  rfl

theorem insertAll_self (m : Properties) : m.insertAll m = m := by
  refine ext_get? ?_ fun key => ?_
  · simp [keys_insertAll]
  · rw [get?_insertAll, Option.or_self]

/-! ## Entries -/

/-- Old entries stay in their places with the texts of the upper layer, new ones follow. -/
theorem toList_insertAll (m source : Properties) :
    (m.insertAll source).toList =
      (m.toList.map fun e => (e.1, (source.get? e.1).getD e.2)) ++
        source.toList.filter (·.1 ∉ m.keys) := by
  rw [toList_eq_map_keys (m.insertAll source), keys_insertAll, List.map_append]
  congr 1
  · rw [keys, List.map_map]
    refine List.map_congr_left fun e he => ?_
    show (e.1, ((m.insertAll source).get? e.1).getD "") = _
    rw [get?_insertAll, get?_eq_some_of_mem he]
    cases source.get? e.1 <;> rfl
  · show ((source.toList.map Prod.fst).filter (· ∉ m.keys)).map _ = _
    rw [List.filter_map, List.map_map]
    refine (List.map_congr_left fun e he => ?_).trans (List.map_id _)
    show (e.1, ((m.insertAll source).get? e.1).getD "") = e
    rw [get?_insertAll, get?_eq_some_of_mem (List.mem_of_mem_filter he)]
    rfl

/-- What a layer does to the entries below it, and how layers and lists of entries combine. -/
theorem layering :
    (∀ (t : Properties) (p : List Entry),
      (t.insertMany p).toList = Entries.putMany t.toList p) ∧
    (∀ t s : Properties, (t.insertAll s).toList =
      (t.toList.map fun e => (e.1, (s.get? e.1).getD e.2)) ++
        s.toList.filter (·.1 ∉ t.keys)) ∧
    (∀ a b c : Properties, (a.insertAll b).insertAll c = a.insertAll (b.insertAll c)) ∧
    (∀ a : Properties, a.insertAll empty = a ∧ empty.insertAll a = a ∧ a.insertAll a = a) ∧
    (∀ a b : Properties, (a.insertAll b).insertAll b = a.insertAll b) ∧
    ∀ p q : List Entry, ofList (p ++ q) = (ofList p).insertAll (ofList q) ∧
      ofList (p ++ q) = q.foldl (fun m e => m.insert e.1 e.2) (ofList p) := by
  refine ⟨toList_insertMany_eq_putMany, toList_insertAll, insertAll_assoc,
    fun a => ⟨rfl, ofList_toList a, insertAll_self a⟩, fun a b => ?_,
    fun p q => ⟨ofList_append p q, insertMany_append empty p q⟩⟩
  rw [insertAll_assoc, insertAll_self]

example : ((ofList [("a", "1"), ("b", "2")]).insertAll
    (ofList [("c", "3"), ("b", "4"), ("c", "5")])).toList =
      [("a", "1"), ("b", "4"), ("c", "5")] := by decide

end FeatureMerge.Properties
