import FeatureMerge.Proofs.Context.Edits

/-!
# Derived contexts

What a derived builder makes of further edits is what a fresh builder makes of the whole
history, blocks apart: where blocks are reset, only those of the further edits are there
(`derive_replays`).
-/

namespace FeatureMerge

open Edit (last? lastPropagation? lastBlock?)

namespace MergeContext

variable {c : MergeContext}

theorem inherited_of_carry (h : c.propagation = .carry) : c.inherited = c.blocks := by
  rw [inherited, h]

theorem inherited_of_reset (h : c.propagation = .reset) : c.inherited = .empty := by
  rw [inherited, h]

theorem build_derive_of_no_provider {es : List Edit}
    (hset : ∀ p, .operation (.featureProvider p) ∉ es) :
    (c.derive.edits es).build = .error .missingFeatureProvider :=
  Builder.build_edits_of_no_provider rfl hset

/-- The history as a whole and its second part on a derived builder give contexts that differ
at most by the blocks with which that part began. -/
theorem exists_replay {h h' : List Edit} (hc : (Builder.fresh.edits h).build = .ok c)
    (hset : ∃ p, .operation (.featureProvider p) ∈ h') :
    ∃ d d', (Builder.fresh.edits (h ++ h')).build = .ok d ∧
      (c.derive.edits h').build = .ok d' ∧ d' = { d with blocks := d'.blocks } := by
  obtain ⟨p, hp⟩ := Edit.exists_lastFeatureProvider?_iff.2 hset
  obtain ⟨p₀, -, rfl⟩ := Builder.build_eq_ok_iff.1 hc
  rw [Builder.edits_append]
  generalize Builder.fresh.edits h = b
  -- The derived builder is `b` again, but for its provider and its blocks.
  have hderived : (b.assemble p₀).derive.edits h' = { b.edits h' with
      featureProvider := (last? Edit.featureProvider? h').or none
      blocks := ((b.assemble p₀).derive.edits h').blocks } :=
    b.edits_with none (b.assemble p₀).inherited h'
  refine ⟨(b.edits h').assemble p, ((b.assemble p₀).derive.edits h').assemble p, ?_, ?_, ?_⟩
  · exact Builder.build_eq_ok_iff.2 ⟨p, b.featureProvider_edits_of_set hp, rfl⟩
  · exact Builder.build_eq_ok_iff.2 ⟨p, Builder.featureProvider_edits_of_set _ hp, rfl⟩
  · exact congrArg (fun b' : Builder => b'.assemble p) hderived

/-- A context can be built on as if its history went on, but for blocks that are reset. -/
theorem derive_replays {h : List Edit} (hc : (Builder.fresh.edits h).build = .ok c) :
    (∀ h' : List Edit, (∃ p, .operation (.featureProvider p) ∈ h') →
      ∃ d d', (Builder.fresh.edits (h ++ h')).build = .ok d ∧
        (c.derive.edits h').build = .ok d' ∧ d' = { d with blocks := d'.blocks } ∧
        ((lastPropagation? h).getD .reset = .carry → d' = d) ∧
        ((lastPropagation? h).getD .reset = .reset → ∀ name,
          d'.blocks.get? name = lastBlock? name h' ∧
          d.blocks.get? name = (lastBlock? name h').or (lastBlock? name h))) ∧
    (∀ h' : List Edit, (∀ p, .operation (.featureProvider p) ∉ h') →
      (c.derive.edits h').build = .error .missingFeatureProvider) ∧
    ∀ p, (c.derive.edit (.operation (.featureProvider p))).build = .ok (c.fork p) := by
  have hpolicy : c.propagation = (lastPropagation? h).getD .reset :=
    Builder.propagation_of_build hc
  have hblocks : ∀ name, c.blocks.get? name = lastBlock? name h := fun name =>
    (Builder.get?_blocks_of_build hc name).trans Option.or_none
  refine ⟨fun h' hset => ?_, fun h' hset => build_derive_of_no_provider hset, fun p => rfl⟩
  obtain ⟨d, d', hd, hd', heq⟩ := exists_replay hc hset
  have hdblocks : ∀ name, d.blocks.get? name = (lastBlock? name h').or (c.blocks.get? name) := by
    intro name
    rw [Builder.edits_append] at hd
    rw [Builder.get?_blocks_of_build hd, Builder.get?_blocks_edits, hblocks]
    exact congrArg _ Option.or_none
  have hdblocks' : ∀ name,
      d'.blocks.get? name = (lastBlock? name h').or (c.inherited.get? name) :=
    Builder.get?_blocks_of_build hd'
  refine ⟨d, d', hd, hd', heq, ?_, ?_⟩
  · intro hcarry
    have hsame : d'.blocks = d.blocks := Blocks.ext_get? fun name => by
      rw [hdblocks, hdblocks', inherited_of_carry (hpolicy.trans hcarry)]
    rw [heq, hsame]
  · intro hreset name
    constructor
    · rw [hdblocks', inherited_of_reset (hpolicy.trans hreset)]
      exact Option.or_none
    · rw [hdblocks, hblocks]

/-- By default a block is there in one go and gone after a derivation. -/
theorem derive_replays_reset :
    let h : List Edit := [.operation (.featureProvider (.echo 0)),
      .operation (.block "a" (.ofList [("k", "v")]))]
    let h' : List Edit := [.operation (.featureProvider (.echo 1))]
    ∃ c d d', (Builder.fresh.edits h).build = .ok c ∧
      (Builder.fresh.edits (h ++ h')).build = .ok d ∧ (c.derive.edits h').build = .ok d' ∧
      d' = { d with blocks := d'.blocks } ∧ d'.blocks.get? "a" = none ∧
      d.blocks.get? "a" = some (.ofList [("k", "v")]) := by
  intro h h'
  have hc : (Builder.fresh.edits h).build = .ok ((Builder.fresh.edits h).assemble (.echo 0)) := rfl
  obtain ⟨d, d', hd, hd', heq, -, hreset⟩ :=
    (derive_replays hc).1 h' ⟨.echo 1, List.mem_singleton_self _⟩
  obtain ⟨hgone, hwas⟩ := hreset rfl "a"
  exact ⟨_, d, d', hc, hd, hd', heq, hgone, hwas⟩

end MergeContext

end FeatureMerge
