import FeatureMerge.Proofs.Context.Derivation
import FeatureMerge.Proofs.Since

/-!
# Inheritance along nested merges

Each context of a chain is derived or forked from the one around it and may be edited in
between. One level hands on its policy, and its blocks if the policy says so
(`Level.Under.propagation_eq`, `Level.Under.get?_blocks_eq`). Over a whole chain a handler is
configured by the block set for it at the latest level, as long as every policy from there
on carries it (`Nested.configuration_of_nested`).
-/

namespace FeatureMerge.MergeContext

open Edit (lastPropagation? lastBlock?)

theorem get?_inherited (c : MergeContext) (name : String) :
    c.inherited.get? name = if c.propagation = .carry then c.blocks.get? name else none := by
  cases h : c.propagation with
  | carry => rw [inherited_of_carry h, if_pos rfl]
  | reset =>
    rw [inherited_of_reset h, if_neg nofun]
    rfl

theorem configuration_handlerContext (c : MergeContext) (name : String) (phase : Phase) :
    (c.handlerContext name phase).configuration = (c.blocks.get? name).getD .empty :=
  rfl

/-- A context in a chain, with the edits that it was built by. -/
structure Level where
  edits : List Edit
  context : MergeContext

/-- The level below is derived or forked from `l`. A fork has no edits of its own. -/
inductive Level.Under (l : Level) : Level → Prop where
  | derive {es : List Edit} {c : MergeContext} :
      (l.context.derive.edits es).build = .ok c → l.Under ⟨es, c⟩
  | fork (p : FeatureProvider) : l.Under ⟨[], l.context.fork p⟩

/-- A chain of contexts: those above, outermost first, and the innermost one. -/
inductive Nested : List Level → Level → Prop where
  | root {es : List Edit} {c : MergeContext} :
      (Builder.fresh.edits es).build = .ok c → Nested [] ⟨es, c⟩
  | under {above : List Level} {l l' : Level} :
      Nested above l → l.Under l' → Nested (above ++ [l]) l'

namespace Level.Under

variable {l l' : Level}

theorem propagation_eq (h : l.Under l') : l'.context.propagation =
    (lastPropagation? l'.edits).getD l.context.propagation := by
  cases h with
  | derive hc => exact Builder.propagation_of_build hc
  | fork p => rfl

theorem get?_blocks_eq (h : l.Under l') (name : String) : l'.context.blocks.get? name =
    (lastBlock? name l'.edits).or (l.context.inherited.get? name) := by
  cases h with
  | derive hc => exact Builder.get?_blocks_of_build hc name
  | fork p => rfl

theorem get?_blocks_of_unset (h : l.Under l') {name : String}
    (hunset : lastBlock? name l'.edits = none) : l'.context.blocks.get? name =
      if l.context.propagation = .carry then l.context.blocks.get? name else none := by
  rw [h.get?_blocks_eq, hunset, Option.none_or, get?_inherited]

end Level.Under

namespace Nested

variable {above before between : List Level} {l last : Level} {name : String}
  {block : Properties}

theorem get?_blocks_of_set (hn : Nested above last)
    (hset : lastBlock? name last.edits = some block) :
    last.context.blocks.get? name = some block := by
  cases hn with
  | root hc => rw [Builder.get?_blocks_of_build hc, hset, Option.some_or]
  | under _ hl => rw [hl.get?_blocks_eq, hset, Option.some_or]

theorem get?_blocks_of_unset (hn : Nested above last)
    (hunset : ∀ l ∈ above ++ [last], lastBlock? name l.edits = none) :
    last.context.blocks.get? name = none := by
  induction hn with
  | root hc =>
    rw [Builder.get?_blocks_of_build hc, hunset _ (List.mem_singleton_self _)]
    rfl
  | under _ hl ih =>
    rw [List.forall_mem_append, List.forall_mem_singleton] at hunset
    rw [hl.get?_blocks_of_unset hunset.2, ih hunset.1, ite_self]

/-- A block that is set at one level and not below is seen as far as policies carry it. -/
theorem get?_blocks_of_above (hn : Nested above last) (habove : above = before ++ l :: between)
    (hset : lastBlock? name l.edits = some block)
    (hunset : ∀ l' ∈ between ++ [last], lastBlock? name l'.edits = none) :
    last.context.blocks.get? name =
      if ∀ l' ∈ l :: between, l'.context.propagation = .carry then some block else none := by
  induction hn generalizing between with
  | root hc => cases before <;> cases habove
  | @under above l₀ last hn hl ih =>
    rw [List.forall_mem_append, List.forall_mem_singleton] at hunset
    obtain ⟨hbetween, hlast⟩ := hunset
    rw [hl.get?_blocks_of_unset hlast]
    -- The level that sets the block is `l₀`, right around the innermost one, or further out.
    rcases append_singleton_eq_split_iff.1 habove with ⟨rfl, rfl, rfl⟩ | ⟨between, rfl, rfl⟩
    · rw [hn.get?_blocks_of_set hset]
      simp only [List.forall_mem_singleton]
    · rw [ih rfl hbetween, ← List.cons_append]
      simp only [List.forall_mem_append, List.forall_mem_singleton]
      by_cases hcarry : l₀.context.propagation = .carry <;> simp [hcarry]

/-- What is above a level that resets is not seen below it. -/
theorem get?_blocks_of_reset (hn : Nested above last) (habove : above = before ++ l :: between)
    (hreset : l.context.propagation = .reset)
    (hunset : ∀ l' ∈ between ++ [last], lastBlock? name l'.edits = none) :
    last.context.blocks.get? name = none := by
  induction hn generalizing between with
  | root hc => cases before <;> cases habove
  | @under above l₀ last hn hl ih =>
    rw [List.forall_mem_append, List.forall_mem_singleton] at hunset
    obtain ⟨hbetween, hlast⟩ := hunset
    rw [hl.get?_blocks_of_unset hlast]
    rcases append_singleton_eq_split_iff.1 habove with ⟨rfl, rfl, rfl⟩ | ⟨between, rfl, rfl⟩
    · rw [hreset, if_neg nofun]
    · rw [ih rfl hbetween, ite_self]

theorem propagation_eq (hn : Nested above last) : last.context.propagation =
    (lastPropagation? ((above ++ [last]).flatMap Level.edits)).getD .reset := by
  induction hn with
  | root hc =>
    rw [Builder.propagation_of_build hc, List.nil_append, List.flatMap_singleton]
    rfl
  | under _ hl ih =>
    rw [hl.propagation_eq, List.flatMap_append, List.flatMap_singleton,
      Edit.lastPropagation?_append, Option.getD_or, ih]

/-- Each level is the innermost one of the chain that ends with it. -/
theorem of_split {after : List Level} (hn : Nested above last)
    (hsplit : above ++ [last] = before ++ l :: after) : Nested before l := by
  induction hn generalizing after with
  | root hc =>
    rcases append_singleton_eq_split_iff.1 hsplit with ⟨-, rfl, rfl⟩ | ⟨_, -, habove⟩
    · exact .root hc
    · cases before <;> cases habove
  | under hn hl ih =>
    rcases append_singleton_eq_split_iff.1 hsplit with ⟨-, rfl, rfl⟩ | ⟨_, -, habove⟩
    · exact .under hn hl
    · exact ih habove

/-! ## What handlers see -/

/-- The configuration of a handler at the innermost level is the block set for it last, at the
latest level that sets one, if all policies from there to the level around are to carry. -/
theorem configuration_of_nested (hn : Nested above last) :
    (∀ name phase,
      let configuration := (last.context.handlerContext name phase).configuration
      (∀ block, lastBlock? name last.edits = some block → configuration = block) ∧
      (∀ before l between block, above = before ++ l :: between →
        lastBlock? name l.edits = some block →
        (∀ l' ∈ between ++ [last], lastBlock? name l'.edits = none) →
          configuration = if ∀ l' ∈ l :: between, l'.context.propagation = .carry then block
            else .empty) ∧
      ((∀ l ∈ above ++ [last], lastBlock? name l.edits = none) → configuration = .empty) ∧
      ∀ before l between, above = before ++ l :: between → l.context.propagation = .reset →
        (∀ l' ∈ between ++ [last], lastBlock? name l'.edits = none) → configuration = .empty) ∧
    ∀ before l after, above ++ [last] = before ++ l :: after → l.context.propagation =
      (lastPropagation? ((before ++ [l]).flatMap Level.edits)).getD .reset := by
  refine ⟨fun name phase => ?_, fun before l after hsplit => (hn.of_split hsplit).propagation_eq⟩
  refine ⟨?_, ?_, ?_, ?_⟩
  · intro block hset
    rw [configuration_handlerContext, hn.get?_blocks_of_set hset, Option.getD_some]
  · intro before l between block habove hset hunset
    rw [configuration_handlerContext, hn.get?_blocks_of_above habove hset hunset]
    split <;> rfl
  · intro hunset
    rw [configuration_handlerContext, hn.get?_blocks_of_unset hunset, Option.getD_none]
  · intro before l between habove hreset hunset
    rw [configuration_handlerContext, hn.get?_blocks_of_reset habove hreset hunset,
      Option.getD_none]

/-- A block set at the top is seen by the merge within and, as that one resets, no further. -/
theorem configuration_of_nested_reset :
    let block := Properties.ofList [("k", "v")]
    let top : List Edit := [.operation (.featureProvider (.echo 0)),
      .operation (.block "a" block), .settings { propagation := some .carry }]
    let middle : List Edit :=
      [.operation (.featureProvider (.echo 1)), .operation (.propagation .reset)]
    ∃ c c' : MergeContext, (Builder.fresh.edits top).build = .ok c ∧
      (c.derive.edits middle).build = .ok c' ∧
      (c'.handlerContext "a" .initial).configuration = block ∧
      ((c'.fork (.echo 2)).handlerContext "a" .initial).configuration = .empty := by
  intro block top middle
  obtain ⟨c, hc, hcarry⟩ : ∃ c, (Builder.fresh.edits top).build = .ok c ∧
      c.propagation = .carry := ⟨_, rfl, rfl⟩
  obtain ⟨c', hc', hreset⟩ : ∃ c', (c.derive.edits middle).build = .ok c' ∧
      c'.propagation = .reset := ⟨_, rfl, rfl⟩
  have hn : Nested [⟨top, c⟩] ⟨middle, c'⟩ := .under (.root hc) (.derive hc')
  have hfork : Nested [⟨top, c⟩, ⟨middle, c'⟩] ⟨[], c'.fork (.echo 2)⟩ := .under hn (.fork _)
  refine ⟨c, c', hc, hc', ?_, ?_⟩
  · obtain ⟨-, hseen, -⟩ := (configuration_of_nested hn).1 "a" .initial
    have hall : ∀ l ∈ ([⟨top, c⟩] : List Level), l.context.propagation = .carry :=
      List.forall_mem_singleton.2 hcarry
    have hblock := hseen [] ⟨top, c⟩ [] block rfl rfl (List.forall_mem_singleton.2 rfl)
    exact hblock.trans (if_pos hall)
  · obtain ⟨-, -, -, hunseen⟩ := (configuration_of_nested hfork).1 "a" .initial
    exact hunseen [⟨top, c⟩] ⟨middle, c'⟩ [] rfl hreset (List.forall_mem_singleton.2 rfl)

end Nested

end FeatureMerge.MergeContext
