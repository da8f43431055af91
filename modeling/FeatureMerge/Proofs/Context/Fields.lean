import FeatureMerge.Proofs.Context.Edits

/-!
# Contexts field by field

`Edit.history` lists for each field of a builder what edits set it to, whatever stands between
them. `MergeContext.IsAssembledBy` says for each field what a fresh builder makes of that list,
and so which context is built (`Builder.build_edits`).
-/

namespace FeatureMerge

/-- What each field is set to, one after another; the block of each handler is a field of its
own. -/
structure History where
  featureProviders : List FeatureProvider
  artifactProviders : List (Option ArtifactProvider)
  «variables» : List Properties
  frameworkProperties : List Properties
  mergeHandlers : List (List MergeHandler)
  postHandlers : List (List PostHandler)
  blocks : String → List Properties
  mergeAlgorithms : List MergeAlgorithm
  propagations : List Propagation

/-- What edits set each field to. -/
def Edit.history (es : List Edit) : History where
  featureProviders := es.filterMap featureProvider?
  artifactProviders := es.filterMap artifactProvider?
  «variables» := es.filterMap variables?
  frameworkProperties := es.filterMap frameworkProperties?
  mergeHandlers := es.filterMap mergeHandlers?
  postHandlers := es.filterMap postHandlers?
  blocks name := es.filterMap (block? name)
  mergeAlgorithms := es.filterMap mergeAlgorithm?
  propagations := es.filterMap propagation?

/-- What a fresh builder comes to, field by field. -/
structure MergeContext.IsAssembledBy (h : History) (c : MergeContext) : Prop where
  featureProvider : h.featureProviders.getLast? = some c.featureProvider
  artifactProvider : c.artifactProvider = h.artifactProviders.getLast?.getD none
  «variables» : c.variables = h.variables.foldl Properties.insertAll .empty
  frameworkProperties :
    c.frameworkProperties = h.frameworkProperties.foldl Properties.insertAll .empty
  mergeHandlers : c.mergeHandlers.entries = h.mergeHandlers.flatten.map fun m => (m.name, m)
  postHandlers : c.postHandlers.entries = h.postHandlers.flatten.map fun p => (p.name, p)
  blocks : ∀ name, c.blocks.get? name = (h.blocks name).getLast?
  mergeAlgorithm : c.mergeAlgorithm = h.mergeAlgorithms.getLast?.getD .highest
  propagation : c.propagation = h.propagations.getLast?.getD .reset

theorem MergeContext.IsAssembledBy.unique {h : History} {c c' : MergeContext}
    (hc : c.IsAssembledBy h) (hc' : c'.IsAssembledBy h) : c = c' := by
  obtain ⟨⟨⟨ap, bs, ⟨mh⟩, ⟨ph⟩, vs, fs, ma⟩, fp⟩, pr⟩ := c
  obtain ⟨⟨⟨ap', bs', ⟨mh'⟩, ⟨ph'⟩, vs', fs', ma'⟩, fp'⟩, pr'⟩ := c'
  obtain rfl : fp = fp' := Option.some.inj (hc.featureProvider.symm.trans hc'.featureProvider)
  obtain rfl : ap = ap' := hc.artifactProvider.trans hc'.artifactProvider.symm
  obtain rfl : vs = vs' := hc.variables.trans hc'.variables.symm
  obtain rfl : fs = fs' := hc.frameworkProperties.trans hc'.frameworkProperties.symm
  obtain rfl : mh = mh' := hc.mergeHandlers.trans hc'.mergeHandlers.symm
  obtain rfl : ph = ph' := hc.postHandlers.trans hc'.postHandlers.symm
  obtain rfl : bs = bs' :=
    Blocks.ext_get? fun name => (hc.blocks name).trans (hc'.blocks name).symm
  obtain rfl : ma = ma' := hc.mergeAlgorithm.trans hc'.mergeAlgorithm.symm
  obtain rfl : pr = pr' := hc.propagation.trans hc'.propagation.symm
  rfl

namespace Builder

/-- Handlers are registered one after another, under their own names. -/
theorem entries_edits {α : Type} (view : Builder → Registry α) {pick : Edit → Option (List α)}
    {name : α → String}
    (h : ∀ b e, view (b.edit e) = (pick e).elim (view b) ((view b).addAll name)) (b : Builder)
    (es : List Edit) : (view (b.edits es)).entries =
      (view b).entries ++ (es.filterMap pick).flatten.map fun a => (name a, a) := by
  have hentries : ∀ b e, (view (b.edit e)).entries = (pick e).elim (view b).entries
      fun as => (view b).entries ++ as.map fun a => (name a, a) := by
    intro b e
    rw [h]
    cases pick e <;> rfl
  rw [b.view_edits (fun b => (view b).entries)
    (fun entries (as : List α) => entries ++ as.map fun a => (name a, a)) hentries,
    List.foldl_append_eq_append, List.map_flatten]

theorem isAssembledBy_assemble {es : List Edit} {p : FeatureProvider}
    (hp : (fresh.edits es).featureProvider = some p) :
    ((fresh.edits es).assemble p).IsAssembledBy (Edit.history es) where
  featureProvider := by
    rw [featureProvider_edits] at hp
    exact Option.or_none.symm.trans hp
  artifactProvider := fresh.view_edits_of_replaced (·.artifactProvider)
    (fun b e => congrArg (·.artifactProvider) (b.edit_eq e)) es
  «variables» := fresh.view_edits (·.variables) Properties.insertAll
    (fun b e => congrArg (·.variables) (b.edit_eq e)) es
  frameworkProperties := fresh.view_edits (·.frameworkProperties) Properties.insertAll
    (fun b e => congrArg (·.frameworkProperties) (b.edit_eq e)) es
  mergeHandlers := entries_edits (·.mergeHandlers)
    (fun b e => congrArg (·.mergeHandlers) (b.edit_eq e)) fresh es
  postHandlers := entries_edits (·.postHandlers)
    (fun b e => congrArg (·.postHandlers) (b.edit_eq e)) fresh es
  blocks name := (fresh.get?_blocks_edits es name).trans Option.or_none
  mergeAlgorithm := fresh.view_edits_of_replaced (·.mergeAlgorithm)
    (fun b e => congrArg (·.mergeAlgorithm) (b.edit_eq e)) es
  propagation := fresh.propagation_edits es

variable {es : List Edit} {c : MergeContext}

theorem build_edits_eq_ok_iff :
    (fresh.edits es).build = .ok c ↔ c.IsAssembledBy (Edit.history es) := by
  constructor
  · intro hc
    obtain ⟨p, hp, rfl⟩ := build_eq_ok_iff.1 hc
    exact isAssembledBy_assemble hp
  · intro h
    have hp : (fresh.edits es).featureProvider = some c.featureProvider :=
      fresh.featureProvider_edits_of_set h.featureProvider
    rw [h.unique (isAssembledBy_assemble hp)]
    exact build_eq_ok_iff.2 ⟨_, hp, rfl⟩

theorem exists_build_edits_iff :
    (∃ c, (fresh.edits es).build = .ok c) ↔ ∃ p, .operation (.featureProvider p) ∈ es := by
  constructor
  · rintro ⟨c, hc⟩
    by_contra hnone
    rw [build_edits_of_no_provider rfl fun p hp => hnone ⟨p, hp⟩] at hc
    cases hc
  · intro hset
    obtain ⟨p, hp⟩ := Edit.exists_lastFeatureProvider?_iff.2 hset
    exact ⟨_, build_eq_ok_iff.2 ⟨p, fresh.featureProvider_edits_of_set hp, rfl⟩⟩

/-- A context is built if a feature provider was set, and is what the edits make of each of its
fields. How edits of different fields stand between each other is all the same. -/
theorem build_edits (es : List Edit) :
    ((∃ c, (fresh.edits es).build = .ok c) ↔ ∃ p, .operation (.featureProvider p) ∈ es) ∧
    ((∀ p, .operation (.featureProvider p) ∉ es) →
      (fresh.edits es).build = .error .missingFeatureProvider) ∧
    (∀ c, (fresh.edits es).build = .ok c ↔ c.IsAssembledBy (Edit.history es)) ∧
    ∀ es', Edit.history es = Edit.history es' →
      (fresh.edits es').build = (fresh.edits es).build := by
  refine ⟨exists_build_edits_iff, build_edits_of_no_provider rfl, fun c => build_edits_eq_ok_iff,
    fun es' hes => ?_⟩
  have hsame : ∀ c, (fresh.edits es').build = .ok c ↔ (fresh.edits es).build = .ok c := by
    intro c
    rw [build_edits_eq_ok_iff, build_edits_eq_ok_iff, hes]
  by_cases hbuilt : ∃ c, (fresh.edits es).build = .ok c
  · obtain ⟨c, hc⟩ := hbuilt
    rw [hc]
    exact (hsame c).2 hc
  · have hbuilt' : ¬ ∃ c, (fresh.edits es').build = .ok c := by
      rwa [exists_congr hsame]
    rw [exists_build_edits_iff, not_exists] at hbuilt hbuilt'
    rw [build_edits_of_no_provider rfl hbuilt, build_edits_of_no_provider rfl hbuilt']

/-- The settings may come before or between the operations on other fields. -/
theorem build_edits_interleaved :
    let layer : Settings :=
      { propagation := some .carry, «variables» := .ofList [("k", "v")] }
    let provider : Edit := .operation (.featureProvider (.echo 0))
    let block₁ : Edit := .operation (.block "a" (.ofList [("x", "1")]))
    let block₂ : Edit := .operation (.block "a" (.ofList [("y", "2")]))
    let es : List Edit := [provider, block₁, .settings layer, block₂]
    let es' : List Edit := [.settings layer, block₁, block₂, provider]
    Edit.history es = Edit.history es' ∧
    ∃ c, (fresh.edits es).build = .ok c ∧ (fresh.edits es').build = .ok c ∧
      c.blocks.get? "a" = some (.ofList [("y", "2")]) ∧ c.propagation = .carry ∧
      c.variables = .ofList [("k", "v")] := by
  intro layer provider block₁ block₂ es es'
  have hes : Edit.history es = Edit.history es' := by
    have hblocks : ∀ name, es.filterMap (Edit.block? name) = es'.filterMap (Edit.block? name) := by
      intro name
      have hprovider : Edit.block? name provider = none := rfl
      have hlayer : Edit.block? name (.settings layer) = none := rfl
      simp only [es, es', List.filterMap_cons, hprovider, hlayer]
    unfold Edit.history
    rw [funext hblocks]
    rfl
  obtain ⟨-, -, hiff, hsame⟩ := build_edits es
  have hc : (fresh.edits es).build = .ok ((fresh.edits es).assemble (.echo 0)) := rfl
  have hassembled := (hiff _).1 hc
  exact ⟨hes, _, hc, (hsame es' hes).trans hc, hassembled.blocks "a", hassembled.propagation,
    hassembled.variables⟩

end Builder

end FeatureMerge
