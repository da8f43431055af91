import FeatureMerge.Proofs.Context.Edits
import FeatureMerge.Proofs.Settings.Json
import FeatureMerge.Proofs.Settings.RoundTrip

/-!
# Settings layered onto a builder

Settings that differ by the order of their entries alone lead to contexts with the same look-ups,
so it makes no difference to a merge which of the two forms the settings were kept in
(`codecs_agree`).
-/

namespace FeatureMerge

/-- The same context, but for the order of entries. -/
structure MergeContext.Agrees (c c' : MergeContext) : Prop where
  others : c' = { c with
    «variables» := c'.variables
    frameworkProperties := c'.frameworkProperties
    blocks := c'.blocks }
  «variables» : c.variables.Agrees c'.variables
  frameworkProperties : c.frameworkProperties.Agrees c'.frameworkProperties
  blocks : c.blocks.Agrees c'.blocks

namespace Settings

/-- The same settings, but for the order of entries. -/
structure Agrees (s s' : Settings) : Prop where
  mergeAlgorithm : s.mergeAlgorithm = s'.mergeAlgorithm
  propagation : s.propagation = s'.propagation
  «variables» : s.variables.Agrees s'.variables
  frameworkProperties : s.frameworkProperties.Agrees s'.frameworkProperties
  handlers : s.handlers.Agrees s'.handlers

theorem agrees_sorted (s : Settings) : s.Agrees s.sorted where
  mergeAlgorithm := rfl
  propagation := rfl
  «variables» := (Properties.sorts_sorted s.variables).agrees
  frameworkProperties := (Properties.sorts_sorted s.frameworkProperties).agrees
  handlers := s.handlers.agrees_sorted

theorem Agrees.assemble_apply {s s' : Settings} (h : s.Agrees s') (b : Builder)
    (p : FeatureProvider) : ((s.apply b).assemble p).Agrees ((s'.apply b).assemble p) := by
  rw [apply_eq, apply_eq, ← h.mergeAlgorithm, ← h.propagation]
  exact ⟨rfl, h.variables.insertAll b.variables,
    h.frameworkProperties.insertAll b.frameworkProperties, h.handlers.setAll b.blocks⟩

theorem featureProvider_apply (s : Settings) (b : Builder) :
    (s.apply b).featureProvider = b.featureProvider := by
  rw [apply_eq]

/-- JSON gives back the very settings that were written. TOML gives back settings that lead to
contexts with the same policies and the same look-ups, whatever they are layered onto. -/
theorem codecs_agree (s : Settings) : ofJson s.toJson = .ok s ∧
    ∃ s', ofToml s.toToml = .ok s' ∧ ∀ b : Builder,
      (∀ p, b.featureProvider = some p → ∃ c c', (s.apply b).build = .ok c ∧
        (s'.apply b).build = .ok c' ∧ c.Agrees c') ∧
      (b.featureProvider = none → (s.apply b).build = .error .missingFeatureProvider ∧
        (s'.apply b).build = .error .missingFeatureProvider) := by
  refine ⟨s.ofJson_toJson_eq_ok, s.sorted, s.ofToml_toToml_sorted, fun b => ⟨?_, ?_⟩⟩
  · intro p hp
    refine ⟨_, _, ?_, ?_, s.agrees_sorted.assemble_apply b p⟩
    · exact Builder.build_eq_ok_iff.2 ⟨p, (s.featureProvider_apply b).trans hp, rfl⟩
    · exact Builder.build_eq_ok_iff.2 ⟨p, (s.sorted.featureProvider_apply b).trans hp, rfl⟩
  · intro hnone
    unfold Builder.build
    rw [featureProvider_apply, featureProvider_apply, hnone]
    exact ⟨rfl, rfl⟩

end Settings

end FeatureMerge
