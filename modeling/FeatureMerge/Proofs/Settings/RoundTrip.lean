import FeatureMerge.Proofs.Settings.Document
import FeatureMerge.Proofs.Toml.Ordered

/-!
# Settings written and read back

`ofToml_toToml` says what becomes of settings that are written and read again:
nothing is lost, but the entries of each map come back in ascending order. So
settings that were read from a document are not changed at all.
-/

namespace FeatureMerge.Settings

open Toml (Table Value)

/-- Each map lists its entries in ascending order. -/
def IsSorted (s : Settings) : Prop :=
  s.variables.IsSorted ∧ s.frameworkProperties.IsSorted ∧ s.handlers.IsSorted

theorem sorted_eq_iff {s : Settings} : s.sorted = s ↔ s.IsSorted := by
  unfold IsSorted
  rw [← Properties.sorted_eq_iff, ← Properties.sorted_eq_iff, ← Blocks.sorted_eq_iff]
  obtain ⟨m, p, vs, fs, bs⟩ := s
  simp [sorted]

/-! ## Settings that were read -/

theorem isSorted_of_properties {v : Value} {m : Properties} (hv : v.IsOrdered)
    (h : v.properties = .ok m) : m.IsSorted := by
  cases hent : v.entries? with
  | none => simp [Value.properties, hent] at h
  | some entries =>
    obtain ⟨hasc, -⟩ := hv.entries hent
    have hm := (Value.properties_eq_ok_iff hent hasc.nodup_keys).1 h
    rw [hm] at hasc
    exact hasc.of_map

theorem isSorted_of_describes {table : Table} {blocks : List (String × Properties)}
    (hvalues : ∀ e ∈ table, e.2.IsOrdered)
    (h : List.Forall₂ Value.DescribesBlock table blocks) : ∀ e ∈ blocks, e.2.IsSorted := by
  induction h with
  | nil => exact nofun
  | cons he _ ih =>
    rw [List.forall_mem_cons] at hvalues ⊢
    exact ⟨isSorted_of_properties hvalues.1 he.2, ih hvalues.2⟩

theorem isSorted_of_blocks {v : Value} {b : Blocks} (hv : v.IsOrdered) (h : v.blocks = .ok b) :
    b.IsSorted := by
  cases hent : v.entries? with
  | none => simp [Value.blocks, hent] at h
  | some entries =>
    obtain ⟨hasc, hvalues⟩ := hv.entries hent
    exact isSorted_of_describes hvalues ((Value.blocks_eq_ok_iff hent hasc).1 h)

theorem isSorted_of_ofToml {text : String} {s : Settings} (h : ofToml text = .ok s) :
    s.IsSorted := by
  unfold ofToml at h
  split at h
  · cases h
  rename_i table hread
  obtain ⟨hasc, hvalues⟩ := (Toml.isOrdered_of_read hread).entries rfl
  have hmakes := (ofTable_eq_ok_iff hasc.nodup_keys).1 (mapError_eq_ok_iff.1 h)
  have hproperties : ∀ e ∈ table, ∀ m, e.2.properties = .ok m → m.IsSorted :=
    fun e he _ => isSorted_of_properties (hvalues e he)
  have hblocks : ∀ e ∈ table, ∀ b, e.2.blocks = .ok b → b.IsSorted :=
    fun e he _ => isSorted_of_blocks (hvalues e he)
  exact ⟨of_field Properties.isSorted_empty hproperties hmakes.variables,
    of_field Properties.isSorted_empty hproperties hmakes.frameworkProperties,
    of_field Blocks.isSorted_empty hblocks hmakes.handlers⟩

/-- Written settings can be read, and are those that were written with the entries of each map in
ascending order. They are the very same if all maps were in order before, as those of settings that
were read are. -/
theorem ofToml_toToml (s : Settings) :
    ∃ s', ofToml s.toToml = .ok s' ∧
      s'.mergeAlgorithm = s.mergeAlgorithm ∧ s'.propagation = s.propagation ∧
      s'.variables.Sorts s.variables ∧ s'.frameworkProperties.Sorts s.frameworkProperties ∧
      List.Forall₂ (fun e' e => e'.1 = e.1 ∧ e'.2.Sorts e.2) s'.handlers.toList
        s.handlers.toList ∧
      (s' = s ↔ s.IsSorted) ∧ ∀ text, ofToml text = .ok s → s' = s := by
  refine ⟨s.sorted, s.ofToml_toToml_sorted, rfl, rfl, Properties.sorts_sorted _,
    Properties.sorts_sorted _, ?_, sorted_eq_iff, ?_⟩
  · show List.Forall₂ _ (s.handlers.toList.map (Prod.map id Properties.sorted)) _
    rw [List.forall₂_map_left_iff, List.forall₂_same]
    exact fun e _ => ⟨rfl, Properties.sorts_sorted e.2⟩
  · intro text h
    exact sorted_eq_iff.2 (isSorted_of_ofToml h)

end FeatureMerge.Settings
