import FeatureMerge.Proofs.Context.Inheritance

/-!
# Families of contexts

The contexts of a family come from one root by derivations and forks. Builders register each
handler under its own name, so it is found under that name in the whole family
(`Family.hasOwnNames`).
-/

namespace FeatureMerge

/-- Handlers are registered under their own names. -/
structure Assembly.HasOwnNames (a : Assembly) : Prop where
  merge : ∀ entry ∈ a.mergeHandlers.entries, entry.1 = entry.2.name
  post : ∀ entry ∈ a.postHandlers.entries, entry.1 = entry.2.name

namespace Registry

variable {α : Type} {name : α → String} {r : Registry α}

theorem forall_mem_addAll (h : ∀ entry ∈ r.entries, entry.1 = name entry.2) (handlers : List α) :
    ∀ entry ∈ (r.addAll name handlers).entries, entry.1 = name entry.2 := by
  rw [entries_addAll, List.forall_mem_append, List.forall_mem_map]
  exact ⟨h, fun _ _ => rfl⟩

end Registry

namespace Builder

variable {b : Builder}

theorem hasOwnNames_fresh : fresh.HasOwnNames := ⟨nofun, nofun⟩

theorem hasOwnNames_apply (h : b.HasOwnNames) (o : Operation) : (b.apply o).HasOwnNames := by
  cases o with
  | mergeHandlers handlers => exact ⟨Registry.forall_mem_addAll h.merge handlers, h.post⟩
  | postHandlers handlers => exact ⟨h.merge, Registry.forall_mem_addAll h.post handlers⟩
  | _ => exact ⟨h.merge, h.post⟩

theorem hasOwnNames_edit (h : b.HasOwnNames) (e : Edit) : (b.edit e).HasOwnNames := by
  cases e with
  | operation o => exact hasOwnNames_apply h o
  | settings s =>
    rw [edit, s.apply_eq b]
    exact ⟨h.merge, h.post⟩

theorem hasOwnNames_edits (h : b.HasOwnNames) (es : List Edit) : (b.edits es).HasOwnNames := by
  induction es generalizing b with
  | nil => exact h
  | cons e es ih => exact ih (hasOwnNames_edit h e)

theorem hasOwnNames_of_build {es : List Edit} {c : MergeContext} (h : b.HasOwnNames)
    (hc : (b.edits es).build = .ok c) : c.HasOwnNames := by
  obtain ⟨p, -, rfl⟩ := build_eq_ok_iff.1 hc
  exact hasOwnNames_edits h es

end Builder

namespace MergeContext

/-- The contexts that come from `root` by derivations and forks. -/
inductive Family (root : MergeContext) : MergeContext → Prop where
  | root : Family root root
  | under {l l' : Level} : Family root l.context → l.Under l' → Family root l'.context

theorem hasOwnNames_derive {c : MergeContext} (h : c.HasOwnNames) : c.derive.HasOwnNames :=
  ⟨h.merge, h.post⟩

theorem Level.Under.hasOwnNames {l l' : Level} (h : l.Under l') (hnames : l.context.HasOwnNames) :
    l'.context.HasOwnNames := by
  cases h with
  | derive hc => exact Builder.hasOwnNames_of_build (hasOwnNames_derive hnames) hc
  | fork p => exact hasOwnNames_derive hnames

theorem Family.hasOwnNames {root c : MergeContext} (h : Family root c)
    (hroot : root.HasOwnNames) : c.HasOwnNames := by
  induction h with
  | root => exact hroot
  | under _ hl ih => exact hl.hasOwnNames ih

end MergeContext

end FeatureMerge
