import FeatureMerge.Proofs.Json.Decoding
import FeatureMerge.Proofs.Properties.Positions
import FeatureMerge.Proofs.Since
import Mathlib.Data.Set.Card

/-!
# Entries and their history

Every call on a map comes down to puts and removals of single keys. `Follows` says which
entries such a history leaves: the keys that are live, each with the value put last, in
the order of their first puts since they were last removed. A put and a removal keep this
up, hence so does every run of calls (`follows_run`).

An event is timed by the number of events before it.
-/

namespace FeatureMerge

namespace Entries

/-- What happens to a single key. -/
inductive Event where
  | put (key value : String)
  | remove (key : String)

def Event.key : Event → String
  | put key _ => key
  | remove key => key

/-- Entries taken as puts, one after another. -/
def puts (entries : List Entry) : List Event := entries.map fun e => .put e.1 e.2

def Call.events : Call → List Event
  | put key value => [.put key value]
  | putAll source => puts source.toList
  | remove key => [.remove key]
  | extend more => puts more

/-- The key was put after its last removal. -/
def IsLive (key : String) : List Event → Prop :=
  Since (fun _ e => ∃ value, e = .put key value) (· ≠ .remove key)

/-- The last event of the key puts this value. -/
def IsLastPut (key value : String) : List Event → Prop :=
  Since (fun _ e => e = .put key value) (·.key ≠ key)

/-- The first put of the key since its last removal happens at time `t`. -/
def IsFirstPut (key : String) (t : Nat) : List Event → Prop :=
  Since (fun before e => before.length = t ∧ ¬ IsLive key before ∧ ∃ value, e = .put key value)
    (· ≠ .remove key)

/-- Since they were last removed, `a` was put before `b`. -/
def IsBefore (events : List Event) (a b : String) : Prop :=
  ∃ s t, IsFirstPut a s events ∧ IsFirstPut b t events ∧ s < t

section

variable {events : List Event} {key k value v : String} {t : Nat}

theorem isLive_put : IsLive key (events ++ [.put k v]) ↔ key = k ∨ IsLive key events := by
  simp [IsLive, Since.append_singleton, eq_comm]

theorem isLive_remove : IsLive key (events ++ [.remove k]) ↔ key ≠ k ∧ IsLive key events := by
  simp [IsLive, Since.append_singleton, eq_comm]

theorem isLastPut_put : IsLastPut key value (events ++ [.put k v]) ↔
    key = k ∧ value = v ∨ key ≠ k ∧ IsLastPut key value events := by
  simp [IsLastPut, Since.append_singleton, Event.key, eq_comm]

theorem isLastPut_remove : IsLastPut key value (events ++ [.remove k]) ↔
    key ≠ k ∧ IsLastPut key value events := by
  simp [IsLastPut, Since.append_singleton, Event.key, eq_comm]

theorem isFirstPut_put : IsFirstPut key t (events ++ [.put k v]) ↔
    t = events.length ∧ key = k ∧ ¬ IsLive key events ∨ IsFirstPut key t events := by
  simp [IsFirstPut, Since.append_singleton, eq_comm, and_comm]

theorem isFirstPut_remove : IsFirstPut key t (events ++ [.remove k]) ↔
    key ≠ k ∧ IsFirstPut key t events := by
  simp [IsFirstPut, Since.append_singleton, eq_comm]

theorem IsFirstPut.isLive : IsFirstPut key t events → IsLive key events :=
  Since.imp (fun _ _ h => h.2.2) (fun _ h => h)

theorem IsFirstPut.lt_length (h : IsFirstPut key t events) : t < events.length := by
  obtain ⟨before, e, after, rfl, ⟨rfl, -⟩, -⟩ := h
  rw [List.length_append, List.length_cons]
  omega

/-- A live key has one time at which it came in. -/
theorem IsLive.existsUnique_isFirstPut :
    IsLive key events → ∃! t, IsFirstPut key t events := by
  induction events using List.reverseRecOn with
  | nil => exact fun h => absurd h Since.not_nil
  | append_singleton events e ih =>
    cases e with
    | put k v =>
      simp only [isLive_put, isFirstPut_put]
      intro h
      by_cases hlive : IsLive key events
      · simpa [hlive] using ih hlive
      · have hk : key = k := h.resolve_right hlive
        refine ⟨events.length, .inl ⟨rfl, hk, hlive⟩, ?_⟩
        rintro t (⟨ht, -⟩ | ht)
        · exact ht
        · exact absurd ht.isLive hlive
    | remove k =>
      simp only [isLive_remove, isFirstPut_remove]
      rintro ⟨hk, hlive⟩
      simpa [hk] using ih hlive

theorem IsBefore.put {a b : String} (h : IsBefore events a b) (k v : String) :
    IsBefore (events ++ [.put k v]) a b := by
  obtain ⟨s, t, hs, ht, hlt⟩ := h
  exact ⟨s, t, isFirstPut_put.2 (.inr hs), isFirstPut_put.2 (.inr ht), hlt⟩

theorem IsBefore.remove {a b : String} (h : IsBefore events a b) (ha : a ≠ k) (hb : b ≠ k) :
    IsBefore (events ++ [.remove k]) a b := by
  obtain ⟨s, t, hs, ht, hlt⟩ := h
  exact ⟨s, t, isFirstPut_remove.2 ⟨ha, hs⟩, isFirstPut_remove.2 ⟨hb, ht⟩, hlt⟩

end

/-! ## Entries that follow a history -/

/-- The entries are those that a history leaves. -/
structure Follows (events : List Event) (entries : List Entry) : Prop where
  nodup_keys : (entries.map Prod.fst).Nodup
  mem_keys_iff : ∀ key, key ∈ entries.map Prod.fst ↔ IsLive key events
  get?_eq_some_iff : ∀ key value, get? key entries = some value ↔ IsLastPut key value events
  in_order : (entries.map Prod.fst).Pairwise (IsBefore events)

theorem mem_keys_erase {key k : String} {entries : List Entry} :
    k ∈ (erase key entries).map Prod.fst ↔ k ≠ key ∧ k ∈ entries.map Prod.fst := by
  have hfilter : (erase key entries).map Prod.fst = (entries.map Prod.fst).filter (· ≠ key) :=
    (List.filter_map (f := Prod.fst) (p := (· ≠ key))).symm
  rw [hfilter, List.mem_filter, decide_eq_true_iff, and_comm]

namespace Follows

variable {events : List Event} {entries : List Entry}

theorem nil : Follows [] [] where
  nodup_keys := .nil
  mem_keys_iff _ := iff_of_false List.not_mem_nil Since.not_nil
  get?_eq_some_iff _ _ := iff_of_false nofun Since.not_nil
  in_order := .nil

theorem put (h : Follows events entries) (key value : String) :
    Follows (events ++ [.put key value]) (Entries.put key value entries).2 := by
  rw [put_eq]
  refine ⟨nodup_keys_insert h.nodup_keys key value, ?_, ?_, ?_⟩
  · intro k
    rw [keys_insert, isLive_put, ← h.mem_keys_iff]
    split
    · rename_i hkey
      exact ⟨.inr, fun hk => hk.elim (fun hk => hk ▸ hkey) id⟩
    · rw [List.mem_append, List.mem_singleton, or_comm]
  · intro k v
    rw [get?_eq_lookup, lookup_insert, isLastPut_put, ← h.get?_eq_some_iff, get?_eq_lookup]
    by_cases hk : k = key <;> simp [hk, eq_comm]
  · have hold : (entries.map Prod.fst).Pairwise (IsBefore (events ++ [.put key value])) :=
      h.in_order.imp fun hab => hab.put key value
    rw [keys_insert]
    split
    · exact hold
    -- A new key comes last, and its first put is the newest event of all.
    · rename_i hkey
      have hlast : IsFirstPut key events.length (events ++ [.put key value]) :=
        isFirstPut_put.2 (.inl ⟨rfl, rfl, fun hlive => hkey ((h.mem_keys_iff key).2 hlive)⟩)
      refine List.pairwise_append.2 ⟨hold, List.pairwise_singleton _ _, ?_⟩
      intro a ha b hb
      obtain rfl := List.mem_singleton.1 hb
      obtain ⟨s, hs, -⟩ := ((h.mem_keys_iff a).1 ha).existsUnique_isFirstPut
      exact ⟨s, events.length, isFirstPut_put.2 (.inr hs), hlast, hs.lt_length⟩

theorem remove (h : Follows events entries) (key : String) :
    Follows (events ++ [.remove key]) (Entries.remove key entries).2 := by
  rw [remove_eq h.nodup_keys]
  refine ⟨nodup_keys_erase h.nodup_keys key, ?_, ?_, ?_⟩
  · intro k
    rw [mem_keys_erase, isLive_remove, h.mem_keys_iff]
  · intro k v
    rw [get?_eq_lookup, lookup_erase, isLastPut_remove, ← h.get?_eq_some_iff, get?_eq_lookup]
    by_cases hk : k = key <;> simp [hk]
  · have hrest : ((erase key entries).map Prod.fst).Pairwise (IsBefore events) :=
      h.in_order.sublist (List.filter_sublist.map Prod.fst)
    refine hrest.imp_of_mem fun ha hb hab => ?_
    exact hab.remove (mem_keys_erase.1 ha).1 (mem_keys_erase.1 hb).1

theorem putMany (h : Follows events entries) (more : List Entry) :
    Follows (events ++ puts more) (Entries.putMany entries more) := by
  induction more generalizing events entries with
  | nil =>
    rw [puts, List.map_nil, List.append_nil]
    exact h
  | cons e more ih =>
    have hmore := ih (h.put e.1 e.2)
    rw [List.append_assoc] at hmore
    exact hmore

theorem take (h : Follows events entries) (call : Call) :
    Follows (events ++ call.events) (call.take entries).2 := by
  cases call with
  | put key value => exact h.put key value
  | putAll source => exact h.putMany source.toList
  | remove key => exact h.remove key
  | extend more => exact h.putMany more

theorem run (h : Follows events entries) (calls : List Call) :
    Follows (events ++ calls.flatMap Call.events) (Entries.run entries calls) := by
  induction calls generalizing events entries with
  | nil =>
    rw [List.flatMap_nil, List.append_nil]
    exact h
  | cons call calls ih =>
    have hcalls := ih (h.take call)
    rw [List.append_assoc, ← List.flatMap_cons] at hcalls
    exact hcalls

theorem length_eq (h : Follows events entries) :
    entries.length = {key | IsLive key events}.ncard := by
  have hlive : {key | IsLive key events} = ((entries.map Prod.fst).toFinset : Set String) := by
    ext key
    rw [Finset.mem_coe, List.mem_toFinset, h.mem_keys_iff]
    rfl
  rw [hlive, Set.ncard_coe_finset, List.toFinset_card_of_nodup h.nodup_keys, List.length_map]

end Follows

end Entries

/-! ## Maps in use -/

namespace Properties

open Entries

/-- What a map is asked is answered from the history of its entries. -/
structure Answers (events : List Event) (m : Properties) : Prop where
  get? : ∀ key value, m.get? key = some value ↔ IsLastPut key value events
  contains : ∀ key, m.contains key = true ↔ IsLive key events
  size : m.size = {key | IsLive key events}.ncard
  put : ∀ key new value,
    (Entries.put key new m.toList).1 = some value ↔ IsLastPut key value events
  remove : ∀ key value, (Entries.remove key m.toList).1 = some value ↔ IsLastPut key value events

theorem contains_iff_mem_keys {m : Properties} {key : String} :
    m.contains key = true ↔ key ∈ m.keys := by
  rw [contains, Option.isSome_iff_ne_none, Properties.get?, Ne, Ascending.lookup_eq_none_iff,
    not_not]
  rfl

theorem answers_of_follows {events : List Event} {m : Properties}
    (h : Follows events m.toList) : Answers events m := by
  have hget : ∀ key value, m.get? key = some value ↔ IsLastPut key value events := by
    intro key value
    rw [← h.get?_eq_some_iff, get?_eq_lookup]
    rfl
  refine ⟨hget, ?_, h.length_eq, ?_, ?_⟩
  · intro key
    rw [contains_iff_mem_keys]
    exact h.mem_keys_iff key
  · intro key new value
    rw [put_eq]
    exact hget key value
  · intro key value
    rw [remove_eq m.nodup_keys]
    exact hget key value

theorem toList_ofList_eq_putMany (start : List Entry) :
    (ofList start).toList = putMany [] start :=
  empty.toList_insertMany_eq_putMany start

/-- A map that begins with given entries, or with a text that holds them, and goes through
any calls holds at each point what its history leaves. -/
theorem follows_run :
    (∀ text m, ofJson text = .ok m ↔ ∃ start,
      Json.Document.read text = ⟨(Entries.value start).outline, true⟩ ∧ m = .ofList start) ∧
    ∀ (start : List Entry) (calls : List Entries.Call),
      let events := puts start ++ calls.flatMap Entries.Call.events
      let m := (ofList start).run calls
      m.toList = Entries.run (putMany [] start) calls ∧ Follows events m.toList ∧
        (∀ key, IsLive key events → ∃! t, IsFirstPut key t events) ∧ Answers events m := by
  refine ⟨fun text m => ofJson_eq_ok_iff, fun start calls => ?_⟩
  have hrun : ((ofList start).run calls).toList = Entries.run (putMany [] start) calls := by
    rw [toList_run, toList_ofList_eq_putMany]
  have hfollows : Follows (puts start ++ calls.flatMap Entries.Call.events)
      ((ofList start).run calls).toList := by
    rw [hrun]
    exact (Follows.nil.putMany start).run calls
  exact ⟨hrun, hfollows, fun key => IsLive.existsUnique_isFirstPut, answers_of_follows hfollows⟩

example : ((ofList [("a", "1"), ("b", "2")]).run
    [.put "b" "3", .remove "a", .extend [("a", "4"), ("b", "5")]]).toList =
      [("b", "5"), ("a", "4")] := by decide

end Properties
end FeatureMerge
