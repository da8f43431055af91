import FeatureMerge.Handler.Failing
import FeatureMerge.Handler.Recording
import FeatureMerge.Proofs.Dispatch.Calls

/-!
# Claimants

The claimant of an extension is the first registered handler that claims it. `Dispatches` says
what a merge gives in terms of the claimant, and `MergesLike` when two contexts have the same
one, with the same block and artifact provider. Nothing else of a context has any influence on
a merge (`mergeExtension_dispatches`).
-/

namespace FeatureMerge

namespace MergeSource

/-- Registration `i` is the first one whose handler claims the extension. -/
structure IsClaimant (c : MergeSource) (e : Extension) (i : Nat) (name : String)
    (handler : MergeHandler) : Prop where
  registered : c.mergeHandlers.entries[i]? = some (name, handler)
  claims : handler.claims e
  first : ∀ j < i, ∀ entry, c.mergeHandlers.entries[j]? = some entry → ¬ entry.2.claims e

/-- What a merge gives: the claimant alone is called, once, and what it makes of the target is
the target. -/
inductive Dispatches (c : MergeSource) (phase : Phase) (target source : Feature) (e : Extension) :
    MergeResult → Prop where
  | unclaimed :
      (∀ entry ∈ c.mergeHandlers.entries, ¬ entry.2.claims e) →
      Dispatches c phase target source e ⟨.unclaimed, target, []⟩
  | merged {i : Nat} {name : String} {handler : MergeHandler} {o : Outcome} :
      c.IsClaimant e i name handler →
      handler.merge ⟨c.artifactProvider, (c.blocks.get? name).getD .empty, phase⟩ target source e
        = o →
      o.failure = none →
      Dispatches c phase target source e ⟨.merged, o.feature, o.log⟩
  | failed {i : Nat} {name : String} {handler : MergeHandler} {o : Outcome} {failure : Failure} :
      c.IsClaimant e i name handler →
      handler.merge ⟨c.artifactProvider, (c.blocks.get? name).getD .empty, phase⟩ target source e
        = o →
      o.failure = some failure →
      Dispatches c phase target source e ⟨.failed failure, o.feature, o.log⟩

/-- The registered handlers that claim the extension. -/
def claimants (c : MergeSource) (e : Extension) : List (String × MergeHandler) :=
  c.mergeHandlers.entries.filter fun entry => entry.2.claims e

/-- The contexts differ at most in handlers that do not claim the extension or stand behind the
claimant, in blocks of other names than the claimant's, and in what a merge does not read. -/
structure MergesLike (c c' : MergeSource) (e : Extension) : Prop where
  claimant : (c.claimants e).head? = (c'.claimants e).head?
  block : ∀ entry ∈ (c.claimants e).head?, c.blocks.get? entry.1 = c'.blocks.get? entry.1
  artifactProvider : c.artifactProvider = c'.artifactProvider

variable {c c' : MergeSource} {e : Extension}

theorem claimant?_eq_some_iff {name : String} {handler : MergeHandler} :
    c.claimant? e = some (name, handler) ↔ ∃ i, c.IsClaimant e i name handler := by
  rw [claimant?, List.find?_eq_some_iff_getElem]
  constructor
  · rintro ⟨hclaims, i, hi, hentry, hfirst⟩
    refine ⟨i, List.getElem?_eq_some_iff.2 ⟨hi, hentry⟩, hclaims, fun j hj entry hjth => ?_⟩
    obtain ⟨-, rfl⟩ := List.getElem?_eq_some_iff.1 hjth
    simpa using hfirst j hj
  · rintro ⟨i, hregistered, hclaims, hfirst⟩
    obtain ⟨hi, hentry⟩ := List.getElem?_eq_some_iff.1 hregistered
    refine ⟨hclaims, i, hi, hentry, fun j hj => ?_⟩
    simpa using hfirst j hj _ (List.getElem?_eq_getElem (by omega))

theorem claimant?_eq_head? : c.claimant? e = (c.claimants e).head? := by
  rw [claimants, List.head?_filter, claimant?]

end MergeSource

namespace MergeResult

variable {o : Outcome}

theorem ofOutcome_of_merged (h : o.failure = none) :
    ofOutcome o = ⟨.merged, o.feature, o.log⟩ := by
  rw [ofOutcome, h, Option.elim_none]

theorem ofOutcome_of_failed {failure : Failure} (h : o.failure = some failure) :
    ofOutcome o = ⟨.failed failure, o.feature, o.log⟩ := by
  rw [ofOutcome, h, Option.elim_some]

end MergeResult

section

variable {c : MergeSource} {phase : Phase} {target source : Feature} {e : Extension}

theorem dispatches_mergeExtension :
    c.Dispatches phase target source e (mergeExtension c phase target source e) := by
  cases h : c.claimant? e with
  | none =>
    rw [mergeExtension_of_unclaimed (List.find?_eq_none.1 h)]
    exact .unclaimed (List.find?_eq_none.1 h)
  | some entry =>
    obtain ⟨name, handler⟩ := entry
    obtain ⟨i, hi⟩ := MergeSource.claimant?_eq_some_iff.1 h
    rw [mergeExtension_of_claimant h]
    cases hfailure : (handler.merge (c.handlerContext name phase) target source e).failure with
    | none =>
      rw [MergeResult.ofOutcome_of_merged hfailure]
      exact .merged hi rfl hfailure
    | some failure =>
      rw [MergeResult.ofOutcome_of_failed hfailure]
      exact .failed hi rfl hfailure

theorem eq_of_dispatches {r : MergeResult} (h : c.Dispatches phase target source e r) :
    mergeExtension c phase target source e = r := by
  cases h with
  | unclaimed hnone => exact mergeExtension_of_unclaimed hnone
  | merged hi ho hfailure =>
    subst ho
    rw [mergeExtension_of_claimant (MergeSource.claimant?_eq_some_iff.2 ⟨_, hi⟩)]
    exact MergeResult.ofOutcome_of_merged hfailure
  | failed hi ho hfailure =>
    subst ho
    rw [mergeExtension_of_claimant (MergeSource.claimant?_eq_some_iff.2 ⟨_, hi⟩)]
    exact MergeResult.ofOutcome_of_failed hfailure

end

/-- A merge gives what its dispatch says and nothing else, and contexts that dispatch alike merge
alike. -/
theorem mergeExtension_dispatches (c : MergeSource) (phase : Phase) (target source : Feature)
    (e : Extension) :
    (∀ r, mergeExtension c phase target source e = r ↔ c.Dispatches phase target source e r) ∧
    ∀ c', c.MergesLike c' e →
      mergeExtension c' phase target source e = mergeExtension c phase target source e := by
  refine ⟨fun r => ⟨?_, eq_of_dispatches⟩, fun c' hlike => ?_⟩
  · rintro rfl
    exact dispatches_mergeExtension
  · have hsame : c'.claimant? e = c.claimant? e := by
      rw [MergeSource.claimant?_eq_head?, MergeSource.claimant?_eq_head?, hlike.claimant]
    cases h : c.claimant? e with
    | none =>
      rw [mergeExtension, mergeExtension, hsame, h]
    | some entry =>
      obtain ⟨name, handler⟩ := entry
      have hblock : c.blocks.get? name = c'.blocks.get? name :=
        hlike.block (name, handler) (MergeSource.claimant?_eq_head?.symm.trans h)
      have hcontext : c'.handlerContext name phase = c.handlerContext name phase := by
        rw [MergeSource.handlerContext, MergeSource.handlerContext, hblock, hlike.artifactProvider]
      rw [mergeExtension_of_claimant (hsame.trans h), mergeExtension_of_claimant h, hcontext]

/-- The recorder is the second registration of one context and the first of the other, which has
another block, algorithm and feature provider, too. -/
theorem mergeExtension_dispatches_behind :
    let recorder := Handler.recorder 1 "r" ["x"] .shared
    let other := Handler.recorder 2 "other" ["y"] .shared
    let block := Properties.ofList [("separator", ";")]
    let c : MergeSource :=
      { featureProvider := .none 0
        mergeHandlers := ⟨[("other", other), ("r", recorder)]⟩
        blocks := .ofList [("r", block)] }
    let c' : MergeSource :=
      { featureProvider := .echo 3
        mergeHandlers := ⟨[("r", recorder), ("f", Handler.failing 4 "f")]⟩
        blocks := .ofList [("other", block), ("r", block)]
        mergeAlgorithm := .latest }
    let x : Extension := { name := "x", kind := .text, text := some "b" }
    let f := Feature.bare ⟨"g", "a", "1", "jar", none⟩
    let target := f.addExtension { x with text := some "a" }
    c.MergesLike c' x ∧
    mergeExtension c' .subsequent target f x = mergeExtension c .subsequent target f x ∧
    (mergeExtension c .subsequent target f x).target =
      f.addExtension { x with text := some "a;b" } := by
  intro recorder other block c c' x f target
  have hlike : c.MergesLike c' x := by
    refine ⟨rfl, ?_, rfl⟩
    rintro _ ⟨⟩
    decide
  exact ⟨hlike, (mergeExtension_dispatches c .subsequent target f x).2 c' hlike, by decide⟩

end FeatureMerge
