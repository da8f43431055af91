import FeatureMerge.Proofs.Properties.Layering
import FeatureMerge.Proofs.Settings.Layers

/-!
# Settings on top of settings

Settings with others on top of them are settings again (`layered`): overwrites are put together,
blocks are replaced as a whole, and a policy counts where it is set. A builder that both are
applied to is as after the one (`apply_apply`).
-/

namespace FeatureMerge

namespace Blocks

theorem setAll_assoc (a b c : Blocks) : (a.setAll b).setAll c = a.setAll (b.setAll c) := by
  refine ext_get? fun name => ?_
  simp only [get?_setAll, Option.or_assoc]

theorem setAll_self (b : Blocks) : b.setAll b = b := by
  refine ext_get? fun name => ?_
  rw [get?_setAll, Option.or_self]

end Blocks

namespace Settings

/-- The settings with others on top of them. -/
def layered (s top : Settings) : Settings where
  mergeAlgorithm := top.mergeAlgorithm.or s.mergeAlgorithm
  propagation := top.propagation.or s.propagation
  «variables» := s.variables.insertAll top.variables
  frameworkProperties := s.frameworkProperties.insertAll top.frameworkProperties
  handlers := s.handlers.setAll top.handlers

theorem apply_layered (s top : Settings) (b : Builder) :
    (s.layered top).apply b = top.apply (s.apply b) := by
  rw [apply_eq top, apply_eq s, apply_eq]
  simp only [layered, Properties.insertAll_assoc, Blocks.setAll_assoc, Option.getD_or]

theorem layered_self (s : Settings) : s.layered s = s := by
  rw [layered, Properties.insertAll_self, Properties.insertAll_self, Blocks.setAll_self,
    Option.or_self, Option.or_self]

theorem apply_empty (b : Builder) : empty.apply b = b := rfl

/-- Two layers of settings can be made one beforehand, whatever they are applied to. A layer does
not count twice, and settings that set nothing change nothing. -/
theorem apply_apply :
    (∀ s₁ s₂ : Settings, ∃ m : Settings,
      m.variables = s₁.variables.insertAll s₂.variables ∧
      m.frameworkProperties = s₁.frameworkProperties.insertAll s₂.frameworkProperties ∧
      (∀ name, m.handlers.get? name = (s₂.handlers.get? name).or (s₁.handlers.get? name)) ∧
      m.mergeAlgorithm = s₂.mergeAlgorithm.or s₁.mergeAlgorithm ∧
      m.propagation = s₂.propagation.or s₁.propagation ∧
      ∀ b : Builder, s₂.apply (s₁.apply b) = m.apply b ∧
        ∀ p, b.featureProvider = some p → ∃ c, (s₂.apply (s₁.apply b)).build = .ok c ∧
          (m.apply b).build = .ok c) ∧
    (∀ (s : Settings) (b : Builder), s.apply (s.apply b) = s.apply b) ∧
    ∀ b : Builder, empty.apply b = b := by
  refine ⟨fun s₁ s₂ => ?_, fun s b => ?_, apply_empty⟩
  · refine ⟨s₁.layered s₂, rfl, rfl, Blocks.get?_setAll s₁.handlers s₂.handlers, rfl, rfl,
      fun b => ⟨(apply_layered s₁ s₂ b).symm, fun p hp => ?_⟩⟩
    have hprovider : ((s₁.layered s₂).apply b).featureProvider = some p :=
      (featureProvider_apply _ b).trans hp
    refine ⟨((s₁.layered s₂).apply b).assemble p, ?_, ?_⟩
    · rw [← apply_layered]
      exact Builder.build_eq_ok_iff.2 ⟨p, hprovider, rfl⟩
    · exact Builder.build_eq_ok_iff.2 ⟨p, hprovider, rfl⟩
  · rw [← apply_layered, layered_self]

end Settings

end FeatureMerge
