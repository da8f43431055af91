import FeatureMerge.Context.Builder
import FeatureMerge.Proofs.Except
import FeatureMerge.Proofs.Lookup

/-!
# Edits of a builder

A caller edits a builder by single operations and by whole settings. For each field an edit can
be asked what it sets there (`Edit.variables?` and its like), and `Builder.edit_eq` and
`Builder.get?_blocks_edit` say what the field is afterwards. In a run a field holds what the edits
that set it make of it (`Builder.view_edits`). On a builder with another provider and other blocks
the same edits change all else in the same way (`Builder.edits_with`).
-/

namespace FeatureMerge

/-- What a caller does to a builder in one call. -/
inductive Edit where
  | operation (o : Operation)
  | settings (s : Settings)

namespace Edit

/-! ## What an edit sets -/

def featureProvider? : Edit → Option FeatureProvider
  | operation (.featureProvider provider) => some provider
  | _ => none

def artifactProvider? : Edit → Option (Option ArtifactProvider)
  | operation (.artifactProvider provider) => some provider
  | _ => none

def variables? : Edit → Option Properties
  | operation (.«variables» layer) => some layer
  | settings s => some s.variables
  | _ => none

def frameworkProperties? : Edit → Option Properties
  | operation (.frameworkProperties layer) => some layer
  | settings s => some s.frameworkProperties
  | _ => none

def mergeHandlers? : Edit → Option (List MergeHandler)
  | operation (.mergeHandlers handlers) => some handlers
  | _ => none

def postHandlers? : Edit → Option (List PostHandler)
  | operation (.postHandlers handlers) => some handlers
  | _ => none

/-- The block that is set for one handler. -/
def block? (name : String) : Edit → Option Properties
  | operation (.block name' block) => if name' = name then some block else none
  | settings s => s.handlers.get? name
  | _ => none

def mergeAlgorithm? : Edit → Option MergeAlgorithm
  | operation (.mergeAlgorithm algorithm) => some algorithm
  | settings s => s.mergeAlgorithm
  | _ => none

def propagation? : Edit → Option Propagation
  | operation (.propagation policy) => some policy
  | settings s => s.propagation
  | _ => none

/-! ## What edits set last -/

section

variable {α : Type} (pick : Edit → Option α)

/-- What is picked from the last edit that anything can be picked from. -/
def last? (es : List Edit) : Option α := (es.filterMap pick).getLast?

theorem last?_append (es es' : List Edit) :
    last? pick (es ++ es') = (last? pick es').or (last? pick es) := by
  rw [last?, List.filterMap_append, List.getLast?_append]
  rfl

theorem last?_cons (e : Edit) (es : List Edit) :
    last? pick (e :: es) = (last? pick es).or (pick e) := by
  rw [← List.singleton_append, last?_append]
  cases h : pick e <;> simp [last?, h]

theorem last?_eq_none_iff {es : List Edit} :
    last? pick es = none ↔ ∀ e ∈ es, pick e = none := by
  rw [last?, List.getLast?_eq_none_iff, List.filterMap_eq_nil_iff]

end

def lastPropagation? (es : List Edit) : Option Propagation := last? propagation? es

/-- The block that was set last for a handler. -/
def lastBlock? (name : String) (es : List Edit) : Option Properties := last? (block? name) es

/-- Settings leave the feature provider alone. -/
theorem lastFeatureProvider?_eq_none_iff {es : List Edit} :
    last? featureProvider? es = none ↔ ∀ p, operation (.featureProvider p) ∉ es := by
  rw [last?_eq_none_iff]
  constructor
  · intro h p hp
    cases h _ hp
  · intro h e he
    cases e with
    | operation o =>
      cases o with
      | featureProvider p => exact absurd he (h p)
      | _ => rfl
    | settings s => rfl

theorem exists_lastFeatureProvider?_iff {es : List Edit} :
    (∃ p, last? featureProvider? es = some p) ↔ ∃ p, operation (.featureProvider p) ∈ es := by
  rw [← Option.ne_none_iff_exists', Ne, lastFeatureProvider?_eq_none_iff, not_forall_not]

theorem lastPropagation?_append (es es' : List Edit) :
    lastPropagation? (es ++ es') = (lastPropagation? es').or (lastPropagation? es) :=
  last?_append propagation? es es'

end Edit

open Edit (last? lastPropagation? lastBlock?)

/-! ## Settings -/

theorem Builder.run_blocks (b : Builder) (blocks : List (String × Properties)) :
    b.run (blocks.map fun e => .block e.1 e.2) =
      { b with blocks := b.blocks.setMany blocks } := by
  induction blocks generalizing b with
  | nil => rfl
  | cons e blocks ih => exact ih (b.apply (.block e.1 e.2))

theorem Settings.apply_eq (s : Settings) (b : Builder) : s.apply b = { b with
    «variables» := b.variables.insertAll s.variables
    frameworkProperties := b.frameworkProperties.insertAll s.frameworkProperties
    blocks := b.blocks.setAll s.handlers
    mergeAlgorithm := s.mergeAlgorithm.getD b.mergeAlgorithm
    propagation := s.propagation.getD b.propagation } := by
  obtain ⟨m, p, vs, fs, bs⟩ := s
  rw [apply, operations, Builder.run_append, Builder.run_append, Builder.run_append,
    Builder.run_blocks]
  cases m <;> cases p <;> rfl

namespace Builder

variable (b : Builder)

/-! ## One edit -/

def edit (b : Builder) : Edit → Builder
  | .operation o => b.apply o
  | .settings s => s.apply b

/-- Each field after an edit, from what the edit sets and what the field was before. The blocks
are left to `get?_blocks_edit`. -/
theorem edit_eq (e : Edit) : b.edit e =
    { featureProvider := e.featureProvider?.or b.featureProvider
      artifactProvider := e.artifactProvider?.getD b.artifactProvider
      «variables» := e.variables?.elim b.variables b.variables.insertAll
      frameworkProperties :=
        e.frameworkProperties?.elim b.frameworkProperties b.frameworkProperties.insertAll
      mergeHandlers :=
        e.mergeHandlers?.elim b.mergeHandlers (b.mergeHandlers.addAll MergeHandler.name)
      postHandlers :=
        e.postHandlers?.elim b.postHandlers (b.postHandlers.addAll PostHandler.name)
      blocks := (b.edit e).blocks
      mergeAlgorithm := e.mergeAlgorithm?.getD b.mergeAlgorithm
      propagation := e.propagation?.getD b.propagation } := by
  cases e with
  | operation o => cases o <;> rfl
  | settings s =>
    rw [edit, s.apply_eq b]
    rfl

theorem get?_blocks_edit (e : Edit) (name : String) :
    (b.edit e).blocks.get? name = (e.block? name).or (b.blocks.get? name) := by
  cases e with
  | operation o =>
    cases o with
    | block name' block =>
      show (b.blocks.set name' block).get? name = _
      rw [Blocks.get?_set, Edit.block?]
      by_cases h : name' = name
      · rw [if_pos h, if_pos h.symm, Option.some_or]
      · rw [if_neg h, if_neg (Ne.symm h), Option.none_or]
    | _ => rfl
  | settings s =>
    rw [edit, s.apply_eq b]
    exact Blocks.get?_setAll b.blocks s.handlers name

/-! ## Edits one after another -/

/-- Edits one after another. -/
def edits (b : Builder) (es : List Edit) : Builder := es.foldl edit b

theorem edits_cons (e : Edit) (es : List Edit) : b.edits (e :: es) = (b.edit e).edits es := rfl

theorem edits_append (es es' : List Edit) : b.edits (es ++ es') = (b.edits es).edits es' :=
  List.foldl_append

section

variable {σ α : Type} {pick : Edit → Option α}

/-- A part of a builder that only the picked edits change is what they make of it. -/
theorem view_edits (view : Builder → σ) (step : σ → α → σ)
    (h : ∀ b e, view (b.edit e) = (pick e).elim (view b) (step (view b))) (es : List Edit) :
    view (b.edits es) = (es.filterMap pick).foldl step (view b) := by
  induction es generalizing b with
  | nil => rfl
  | cons e es ih =>
    rw [edits_cons, ih, h]
    cases he : pick e with
    | none => rw [List.filterMap_cons_none he, Option.elim_none]
    | some a => rw [List.filterMap_cons_some he, Option.elim_some, List.foldl_cons]

/-- What may be missing at first is there once it has been set. -/
theorem view_edits_of_set (view : Builder → Option α)
    (h : ∀ b e, view (b.edit e) = (pick e).or (view b)) (es : List Edit) :
    view (b.edits es) = (last? pick es).or (view b) := by
  induction es generalizing b with
  | nil => rfl
  | cons e es ih => rw [edits_cons, ih, h, Edit.last?_cons, Option.or_assoc]

/-- Of what is replaced the last remains. -/
theorem view_edits_of_replaced (view : Builder → α)
    (h : ∀ b e, view (b.edit e) = (pick e).getD (view b)) (es : List Edit) :
    view (b.edits es) = (last? pick es).getD (view b) := by
  have hset : some (view (b.edits es)) = (last? pick es).or (some (view b)) :=
    b.view_edits_of_set (fun b => some (view b)) (fun b e => by rw [h, Option.or_some]) es
  rw [Option.or_some] at hset
  exact Option.some.inj hset

end

theorem featureProvider_edits (es : List Edit) :
    (b.edits es).featureProvider = (last? Edit.featureProvider? es).or b.featureProvider :=
  b.view_edits_of_set (·.featureProvider) (fun b e => congrArg (·.featureProvider) (b.edit_eq e)) es

theorem featureProvider_edits_of_set {es : List Edit} {p : FeatureProvider}
    (hp : last? Edit.featureProvider? es = some p) : (b.edits es).featureProvider = some p := by
  rw [featureProvider_edits, hp, Option.some_or]

theorem propagation_edits (es : List Edit) :
    (b.edits es).propagation = (lastPropagation? es).getD b.propagation :=
  b.view_edits_of_replaced (·.propagation) (fun b e => congrArg (·.propagation) (b.edit_eq e)) es

theorem get?_blocks_edits (es : List Edit) (name : String) :
    (b.edits es).blocks.get? name = (lastBlock? name es).or (b.blocks.get? name) :=
  b.view_edits_of_set (·.blocks.get? name) (fun b e => b.get?_blocks_edit e name) es

/-! ## Edits of another builder -/

/-- All else is changed in the same way whatever the provider and the blocks are. -/
theorem edit_with (provider : Option FeatureProvider) (blocks : Blocks) (e : Edit) :
    let b' : Builder := { b with featureProvider := provider, blocks := blocks }
    b'.edit e = { b.edit e with
      featureProvider := e.featureProvider?.or provider
      blocks := (b'.edit e).blocks } := by
  intro b'
  rw [b'.edit_eq e, b.edit_eq e]

theorem edits_with (provider : Option FeatureProvider) (blocks : Blocks) (es : List Edit) :
    let b' : Builder := { b with featureProvider := provider, blocks := blocks }
    b'.edits es = { b.edits es with
      featureProvider := (last? Edit.featureProvider? es).or provider
      blocks := (b'.edits es).blocks } := by
  intro b'
  induction es generalizing b provider blocks with
  | nil => rfl
  | cons e es ih =>
    have hstep := ih (b.edit e) (e.featureProvider?.or provider) (b'.edit e).blocks
    rw [← b.edit_with provider blocks e] at hstep
    rw [Edit.last?_cons, Option.or_assoc]
    exact hstep

/-! ## What is built -/

theorem build_eq_ok_iff {b : Builder} {c : MergeContext} :
    b.build = .ok c ↔ ∃ p, b.featureProvider = some p ∧ c = b.assemble p := by
  unfold build
  cases b.featureProvider with
  | none => exact iff_of_false nofun (by rintro ⟨_, ⟨⟩, -⟩)
  | some p =>
    constructor
    · rintro ⟨⟩
      exact ⟨p, rfl, rfl⟩
    · rintro ⟨_, ⟨⟩, rfl⟩
      rfl

section

variable {b : Builder} {es : List Edit} {c : MergeContext}

theorem build_edits_of_no_provider (hb : b.featureProvider = none)
    (h : ∀ p, .operation (.featureProvider p) ∉ es) :
    (b.edits es).build = .error .missingFeatureProvider := by
  have hnone : (b.edits es).featureProvider = none := by
    rw [featureProvider_edits, Edit.lastFeatureProvider?_eq_none_iff.2 h, hb]
    rfl
  rw [build, hnone]

theorem propagation_of_build (h : (b.edits es).build = .ok c) :
    c.propagation = (lastPropagation? es).getD b.propagation := by
  obtain ⟨p, -, rfl⟩ := build_eq_ok_iff.1 h
  exact b.propagation_edits es

theorem get?_blocks_of_build (h : (b.edits es).build = .ok c) (name : String) :
    c.blocks.get? name = (lastBlock? name es).or (b.blocks.get? name) := by
  obtain ⟨p, -, rfl⟩ := build_eq_ok_iff.1 h
  exact b.get?_blocks_edits es name

end

end Builder

end FeatureMerge
