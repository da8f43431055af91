import FeatureMerge.Dispatch
import Mathlib.Data.List.Basic

/-!
# Single calls

A merge is the work of the first handler that claims the extension
(`mergeExtension_cases`). A pass takes its steps as long as no handler fails
(`Pass.step_of_running`, `Pass.foldl_of_failed`).
-/

namespace FeatureMerge

/-- Either nothing in a list has a property, or something is the first to have it. -/
theorem forall_not_or_exists_first {α : Type} (P : α → Prop) (xs : List α) :
    (∀ x ∈ xs, ¬ P x) ∨
      ∃ before x after, xs = before ++ x :: after ∧ (∀ y ∈ before, ¬ P y) ∧ P x := by
  induction xs with
  | nil => exact .inl nofun
  | cons x xs ih =>
    by_cases hx : P x
    · exact .inr ⟨[], x, xs, rfl, nofun, hx⟩
    · rcases ih with h | ⟨before, y, after, rfl, hbefore, hy⟩
      · exact .inl (List.forall_mem_cons.2 ⟨hx, h⟩)
      · exact .inr ⟨x :: before, y, after, rfl, List.forall_mem_cons.2 ⟨hx, hbefore⟩, hy⟩

/-! ## Merging -/

section

variable {c : MergeSource} {phase : Phase} {target source : Feature} {e : Extension}

theorem mergeExtension_of_unclaimed
    (h : ∀ entry ∈ c.mergeHandlers.entries, ¬ entry.2.claims e) :
    mergeExtension c phase target source e = ⟨.unclaimed, target, []⟩ := by
  have hnone : c.claimant? e = none := List.find?_eq_none.2 h
  rw [mergeExtension, hnone]

theorem mergeExtension_of_claimant {name : String} {handler : MergeHandler}
    (h : c.claimant? e = some (name, handler)) :
    mergeExtension c phase target source e =
      .ofOutcome (handler.merge (c.handlerContext name phase) target source e) := by
  rw [mergeExtension, h]

theorem mergeExtension_of_first {before after : List (String × MergeHandler)} {name : String}
    {handler : MergeHandler} (hsplit : c.mergeHandlers.entries = before ++ (name, handler) :: after)
    (hbefore : ∀ entry ∈ before, ¬ entry.2.claims e) (hclaims : handler.claims e) :
    mergeExtension c phase target source e =
      .ofOutcome (handler.merge (c.handlerContext name phase) target source e) := by
  refine mergeExtension_of_claimant (List.find?_eq_some_iff_append.2
    ⟨hclaims, before, after, hsplit, fun entry hentry => ?_⟩)
  simpa using hbefore entry hentry

/-- All that can become of a merge: nobody claims the extension, or the first who does is asked. -/
theorem mergeExtension_cases (c : MergeSource) (phase : Phase) (target source : Feature)
    (e : Extension) :
    (∀ entry ∈ c.mergeHandlers.entries, ¬ entry.2.claims e) ∧
      mergeExtension c phase target source e = ⟨.unclaimed, target, []⟩ ∨
    ∃ before name handler after,
      c.mergeHandlers.entries = before ++ (name, handler) :: after ∧
      (∀ entry ∈ before, ¬ entry.2.claims e) ∧ handler.claims e ∧
      mergeExtension c phase target source e =
        .ofOutcome (handler.merge (c.handlerContext name phase) target source e) := by
  rcases forall_not_or_exists_first (fun entry => entry.2.claims e = true)
      c.mergeHandlers.entries with
    h | ⟨before, ⟨name, handler⟩, after, hsplit, hbefore, hclaims⟩
  · exact .inl ⟨h, mergeExtension_of_unclaimed h⟩
  · exact .inr ⟨before, name, handler, after, hsplit, hbefore, hclaims,
      mergeExtension_of_first hsplit hbefore hclaims⟩

end

/-! ## Passes -/

namespace MergeSource

theorem map_agenda {α : Type} (c : MergeSource) (f : Feature) (g : Extension → String → α) :
    (c.agenda f).map (fun next => g next.1 next.2.1) =
      f.extensions.flatMap fun e => c.postHandlers.names.map (g e) := by
  simp [agenda, Registry.names, List.map_flatMap, Function.comp_def]

/-- The agenda begins with the first extension and the handlers in their order. -/
theorem exists_agenda_eq {c : MergeSource} {f : Feature} {e : Extension} {es : List Extension}
    {before after : List (String × PostHandler)} {entry : String × PostHandler}
    (hes : f.extensions = e :: es) (hsplit : c.postHandlers.entries = before ++ entry :: after) :
    ∃ rest, c.agenda f = before.map (e, ·) ++ (e, entry) :: rest := by
  rw [agenda, hes, List.flatMap_cons, hsplit, List.map_append, List.map_cons, List.append_assoc,
    List.cons_append]
  exact ⟨_, rfl⟩

end MergeSource

namespace Pass

variable {c : MergeSource} {phase : Phase} {p : Pass}

theorem step_of_running (h : p.failure = none) (e : Extension) (name : String)
    (handler : PostHandler) :
    let o := handler.process (c.handlerContext name phase) p.feature e
    p.step c phase (e, name, handler) =
      { feature := o.feature
        failure := o.failure
        log := p.log ++ o.log
        calls := p.calls ++ [⟨name, e, p.feature, c.handlerContext name phase⟩] } := by
  rw [step, h]

theorem foldl_of_failed (h : p.failure ≠ none) (agenda : List (Extension × String × PostHandler)) :
    agenda.foldl (step c phase) p = p := by
  obtain ⟨failure, hfailure⟩ := Option.ne_none_iff_exists'.1 h
  induction agenda with
  | nil => rfl
  | cons next agenda ih =>
    rw [List.foldl_cons, step, hfailure]
    exact ih

end Pass

end FeatureMerge
