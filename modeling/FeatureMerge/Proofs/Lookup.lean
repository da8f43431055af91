import Mathlib.Data.List.Nodup
import FeatureMerge.Proofs.Maps

/-!
# Look-ups apart from the order

Under distinct keys a look-up does not depend on the order of the entries. So a map that has
been sorted agrees with what it was before, and so do maps over which the two are layered.
-/

namespace FeatureMerge

section

variable {α σ : Type} {entries entries' : List (String × α)} {key : String}

theorem lookup_eq_some_iff_mem (h : (entries.map Prod.fst).Nodup) {a : α} :
    entries.lookup key = some a ↔ (key, a) ∈ entries := by
  refine ⟨Ascending.mem_of_lookup, fun hmem => ?_⟩
  obtain ⟨before, after, rfl⟩ := List.append_of_mem hmem
  rw [List.map_append, List.map_cons, List.nodup_middle, List.nodup_cons] at h
  refine List.lookup_eq_some_iff.2 ⟨before, after, rfl, fun e he => ?_⟩
  have he : e.1 ∈ before.map Prod.fst := List.mem_map_of_mem he
  exact bne_iff_ne.2 fun hkey => h.1 (List.mem_append_left _ (hkey ▸ he))

theorem lookup_eq_of_perm (h : (entries.map Prod.fst).Nodup) (hperm : entries.Perm entries') :
    entries.lookup key = entries'.lookup key := by
  have h' : (entries'.map Prod.fst).Nodup := (hperm.map Prod.fst).nodup_iff.1 h
  refine Option.ext fun a => ?_
  rw [lookup_eq_some_iff_mem h, lookup_eq_some_iff_mem h', hperm.mem_iff]

/-- Entries in order are determined by their look-ups. -/
theorem Ascending.IsAscending.eq_of_lookup (h : IsAscending entries) (h' : IsAscending entries')
    (hlookup : ∀ key, entries.lookup key = entries'.lookup key) : entries = entries' := by
  have hnodup := h.nodup_keys
  have hnodup' := h'.nodup_keys
  refine h.eq_of_perm h' ((List.perm_ext_iff_of_nodup hnodup.of_map hnodup'.of_map).2 fun e => ?_)
  rw [← lookup_eq_some_iff_mem hnodup, ← lookup_eq_some_iff_mem hnodup', hlookup]

theorem lookup_reverse (h : (entries.map Prod.fst).Nodup) :
    entries.reverse.lookup key = entries.lookup key :=
  (lookup_eq_of_perm h (List.reverse_perm entries).symm).symm

theorem lookup_map {β : Type} (f : α → β) (entries : List (String × α)) :
    (entries.map (Prod.map id f)).lookup key = (entries.lookup key).map f := by
  induction entries with
  | nil => rfl
  | cons e rest ih =>
    rw [List.map_cons, List.lookup_cons, List.lookup_cons, ih, Prod.map_fst, id]
    cases key == e.1 <;> rfl

/-- Of entries that are put one after another the last one under a key is found. -/
theorem lookup_foldl {get : σ → String → Option α} {put : σ → String × α → σ}
    (h : ∀ s e k, get (put s e) k = if k = e.1 then some e.2 else get s k) (s : σ)
    (entries : List (String × α)) (key : String) :
    get (entries.foldl put s) key = (entries.reverse.lookup key).or (get s key) := by
  induction entries generalizing s with
  | nil => rfl
  | cons e entries ih =>
    have hput : get (put s e) key = ([e].lookup key).or (get s key) := by
      rw [h, List.lookup_cons]
      by_cases hk : key = e.1
      · simp [hk]
      · rw [if_neg hk, beq_eq_false_iff_ne.2 hk]
        rfl
    rw [List.foldl_cons, ih, hput, List.reverse_cons, List.lookup_append, Option.or_assoc]

end

namespace Properties

variable {m m' : Properties}

theorem get?_insertMany (m : Properties) (entries : List Entry) (key : String) :
    (m.insertMany entries).get? key = (entries.reverse.lookup key).or (m.get? key) :=
  lookup_foldl (fun m e k => get?_insert m e.1 e.2 k) m entries key

theorem get?_insertAll (m source : Properties) (key : String) :
    (m.insertAll source).get? key = (source.get? key).or (m.get? key) := by
  rw [insertAll, get?_insertMany, lookup_reverse source.nodup_keys]
  rfl

/-- The same text under every key. -/
def Agrees (m m' : Properties) : Prop := ∀ key, m.get? key = m'.get? key

theorem Agrees.refl (m : Properties) : m.Agrees m := fun _ => rfl

theorem Sorts.agrees (h : m'.Sorts m) : m.Agrees m' := fun _ =>
  lookup_eq_of_perm m.nodup_keys h.1.symm

theorem Agrees.insertAll (h : m.Agrees m') (base : Properties) :
    (base.insertAll m).Agrees (base.insertAll m') := by
  intro key
  rw [get?_insertAll, get?_insertAll, h key]

end Properties

namespace Blocks

variable {b b' : Blocks}

theorem get?_setMany (b : Blocks) (es : List (String × Properties)) (name : String) :
    (b.setMany es).get? name = (es.reverse.lookup name).or (b.get? name) :=
  lookup_foldl (fun b e k => get?_set b e.1 k e.2) b es name

theorem get?_setAll (b source : Blocks) (name : String) :
    (b.setAll source).get? name = (source.get? name).or (b.get? name) := by
  rw [setAll, get?_setMany, lookup_reverse source.ascending.nodup_keys]
  rfl

theorem ext_get? (h : ∀ name, b.get? name = b'.get? name) : b = b' :=
  ext (b.ascending.eq_of_lookup b'.ascending h)

/-- Blocks for the same handlers, with the same text under every key. -/
def Agrees (b b' : Blocks) : Prop :=
  ∀ name, Option.Rel Properties.Agrees (b.get? name) (b'.get? name)

theorem get?_sorted (b : Blocks) (name : String) :
    b.sorted.get? name = (b.get? name).map Properties.sorted :=
  lookup_map Properties.sorted b.toList

theorem agrees_sorted (b : Blocks) : b.Agrees b.sorted := by
  intro name
  rw [get?_sorted]
  cases b.get? name with
  | none => exact .none
  | some m => exact .some (Properties.sorts_sorted m).agrees

theorem Agrees.setAll (h : b.Agrees b') (base : Blocks) :
    (base.setAll b).Agrees (base.setAll b') := by
  intro name
  rw [get?_setAll, get?_setAll]
  have hname := h name
  revert hname
  generalize b.get? name = o, b'.get? name = o'
  rintro (hm | _)
  · exact .some hm
  · cases base.get? name with
    | none => exact .none
    | some m => exact .some (.refl m)

end Blocks

end FeatureMerge
