import FeatureMerge.Proofs.Maps
import FeatureMerge.Properties.Calls

/-!
# Positions and keys

Working on entries by position comes to the same as working on them by key: `put_eq` for
any list, `remove_eq` where no key occurs twice. So calls on the bare entries of a map do
what they do on the map (`toList_run`).
-/

namespace FeatureMerge

namespace Entries

variable {key : String} {entries : List Entry}

theorem position?_cons_self (key value : String) (rest : List Entry) :
    position? key ((key, value) :: rest) = some 0 := by
  simp [position?, List.findIdx?_cons]

theorem position?_cons_of_ne {k : String} (h : k ≠ key) (value : String) (rest : List Entry) :
    position? key ((k, value) :: rest) = (position? key rest).map (· + 1) := by
  simp [position?, List.findIdx?_cons, h]

theorem beq_false_of_ne {k : String} (h : k ≠ key) : (key == k) = false :=
  beq_eq_false_iff_ne.2 h.symm

theorem get?_eq_lookup (key : String) (entries : List Entry) :
    get? key entries = entries.lookup key := by
  induction entries with
  | nil => rfl
  | cons e rest ih =>
    obtain ⟨k, v⟩ := e
    by_cases hk : k = key
    · subst hk
      simp [get?, position?_cons_self, valueAt?]
    · rw [List.lookup_cons, beq_false_of_ne hk, ← ih, get?, position?_cons_of_ne hk, get?]
      cases position? key rest <;> rfl

theorem put_cons_of_ne {k : String} (h : k ≠ key) (v value : String) (rest : List Entry) :
    put key value ((k, v) :: rest) =
      ((put key value rest).1, (k, v) :: (put key value rest).2) := by
  unfold put
  rw [position?_cons_of_ne h]
  cases position? key rest <;> rfl

theorem put_eq (key value : String) (entries : List Entry) :
    put key value entries = (entries.lookup key, insert key value entries) := by
  induction entries with
  | nil => rfl
  | cons e rest ih =>
    obtain ⟨k, v⟩ := e
    by_cases hk : k = key
    · subst hk
      simp [put, position?_cons_self, valueAt?, insert]
    · rw [put_cons_of_ne hk, ih, List.lookup_cons, beq_false_of_ne hk, insert, if_neg hk]

theorem erase_of_not_mem (h : key ∉ entries.map Prod.fst) : erase key entries = entries := by
  refine List.filter_eq_self.2 fun e he => ?_
  have hne : e.1 ≠ key := fun heq => h (heq ▸ List.mem_map_of_mem he)
  simpa using hne

theorem remove_cons_of_ne {k : String} (h : k ≠ key) (v : String) (rest : List Entry) :
    remove key ((k, v) :: rest) = ((remove key rest).1, (k, v) :: (remove key rest).2) := by
  unfold remove
  rw [position?_cons_of_ne h]
  cases position? key rest <;> rfl

/-- Taking out one entry takes out all of its key, as long as keys are distinct. -/
theorem remove_eq (h : (entries.map Prod.fst).Nodup) (key : String) :
    remove key entries = (entries.lookup key, erase key entries) := by
  induction entries with
  | nil => rfl
  | cons e rest ih =>
    obtain ⟨k, v⟩ := e
    obtain ⟨hfresh, hrest⟩ := List.nodup_cons.1 h
    by_cases hk : k = key
    · subst hk
      have herase : erase k ((k, v) :: rest) = rest := by
        rw [erase, List.filter_cons_of_neg (by simp)]
        exact erase_of_not_mem hfresh
      rw [remove, position?_cons_self, herase]
      simp [valueAt?]
    · have herase : erase key ((k, v) :: rest) = (k, v) :: erase key rest :=
        List.filter_cons_of_pos (by simpa using hk)
      rw [remove_cons_of_ne hk, ih hrest, herase, List.lookup_cons, beq_false_of_ne hk]

end Entries

namespace Properties

/-- The map after a call. -/
def call (m : Properties) : Entries.Call → Properties
  | .put key value => m.insert key value
  | .putAll source => m.insertAll source
  | .remove key => m.erase key
  | .extend more => m.insertMany more

/-- The map after several calls. -/
def run (m : Properties) (calls : List Entries.Call) : Properties := calls.foldl call m

theorem toList_insertMany_eq_putMany (m : Properties) (more : List Entry) :
    (m.insertMany more).toList = Entries.putMany m.toList more := by
  induction more generalizing m with
  | nil => rfl
  | cons e more ih =>
    rw [insertMany_cons, ih, toList_insert]
    show _ = Entries.putMany (Entries.put e.1 e.2 m.toList).2 more
    rw [Entries.put_eq]

theorem toList_call (m : Properties) (c : Entries.Call) :
    (m.call c).toList = (c.take m.toList).2 := by
  cases c with
  | put key value => exact (congrArg Prod.snd (Entries.put_eq key value m.toList)).symm
  | putAll source => exact m.toList_insertMany_eq_putMany source.toList
  | remove key => exact (congrArg Prod.snd (Entries.remove_eq m.nodup_keys key)).symm
  | extend more => exact m.toList_insertMany_eq_putMany more

theorem toList_run (m : Properties) (calls : List Entries.Call) :
    (m.run calls).toList = Entries.run m.toList calls := by
  induction calls generalizing m with
  | nil => rfl
  | cons c calls ih =>
    show ((m.call c).run calls).toList = Entries.run (c.take m.toList).2 calls
    rw [ih, toList_call]

end Properties

end FeatureMerge
