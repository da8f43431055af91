import FeatureMerge.Handler.Recording
import FeatureMerge.Proofs.Dispatch.Calls
import Mathlib.Data.List.Chain
import Mathlib.Data.List.ProdSigma

/-!
# Turns of a pass

A `Turn` is one call of a post handler. `Pass.IsRun` says which turns make up a pass over an
agenda: each is given what the turn before left, and only a failure ends them early. A pass is
determined by that: its agenda are the pairs of extensions and handlers as they are when it
begins, whatever handlers make of the extensions (`postProcess_turns`).
-/

namespace FeatureMerge

/-- A call of a post handler for an extension, with the feature that it is given. -/
structure Turn where
  extension : Extension
  name : String
  handler : PostHandler
  feature : Feature

namespace Turn

def job (t : Turn) : Extension × String × PostHandler := (t.extension, t.name, t.handler)

/-- What a handler sees of the context; handlers of one name see one block. -/
def context (c : MergeSource) (phase : Phase) (t : Turn) : HandlerContext where
  artifactProvider := c.artifactProvider
  configuration := (c.blocks.get? t.name).getD .empty
  phase := phase

def outcome (c : MergeSource) (phase : Phase) (t : Turn) : Outcome :=
  t.handler.process (t.context c phase) t.feature t.extension

def call (c : MergeSource) (phase : Phase) (t : Turn) : Call :=
  ⟨t.name, t.extension, t.feature, t.context c phase⟩

end Turn

namespace Pass

/-- The turns are those of a pass over the agenda that begins with `f`. -/
structure IsRun (c : MergeSource) (phase : Phase) (f : Feature)
    (agenda : List (Extension × String × PostHandler)) (turns : List Turn) : Prop where
  order : turns.map Turn.job <+: agenda
  /-- The first handler is given the feature itself. -/
  start : ∀ t ∈ turns.head?, t.feature = f
  /-- A handler comes after one that did not fail, and is given the feature that that one left. -/
  chain : turns.IsChain fun t u =>
    (t.outcome c phase).failure = none ∧ u.feature = (t.outcome c phase).feature
  /-- Without a failure nothing of the agenda is left out. -/
  complete : (∀ t ∈ turns.getLast?, (t.outcome c phase).failure = none) →
    turns.length = agenda.length

/-- The pass after further turns. -/
def after (c : MergeSource) (phase : Phase) (p : Pass) (turns : List Turn) : Pass where
  feature := (turns.getLast?.map fun t => (t.outcome c phase).feature).getD p.feature
  failure := turns.getLast?.bind fun t => (t.outcome c phase).failure
  log := p.log ++ turns.flatMap fun t => (t.outcome c phase).log
  calls := p.calls ++ turns.map (Turn.call c phase)

variable {c : MergeSource} {phase : Phase} {p : Pass} {t : Turn} {turns : List Turn}
  {f : Feature} {agenda : List (Extension × String × PostHandler)}

theorem isRun_nil_iff : IsRun c phase f [] turns ↔ turns = [] := by
  constructor
  · intro h
    exact List.map_eq_nil_iff.1 (List.prefix_nil.1 h.order)
  · rintro rfl
    exact ⟨List.prefix_rfl, by simp, .nil, fun _ => rfl⟩

/-- A pass begins with a turn for the head of its agenda. -/
theorem IsRun.exists_eq_cons (h : IsRun c phase t.feature (t.job :: agenda) turns) :
    ∃ rest, turns = t :: rest := by
  cases turns with
  | nil => cases h.complete (by simp)
  | cons u rest =>
    have hjob : u.job = t.job := (List.cons_prefix_cons.1 h.order).1
    have hfeature : u.feature = t.feature := h.start u rfl
    obtain ⟨_, _, _, _⟩ := u
    obtain ⟨_, _, _, _⟩ := t
    cases hjob
    cases hfeature
    exact ⟨rest, rfl⟩

theorem isRun_of_failed {failure : Failure} (hfailed : (t.outcome c phase).failure = some failure) :
    IsRun c phase t.feature (t.job :: agenda) turns ↔ turns = [t] := by
  constructor
  · intro h
    obtain ⟨rest, rfl⟩ := h.exists_eq_cons
    cases rest with
    | nil => rfl
    | cons u rest =>
      -- A second turn could only come after a first one that did not fail.
      have hnone := ((List.isChain_cons_cons.1 h.chain).1).1
      rw [hfailed] at hnone
      cases hnone
  · rintro rfl
    refine ⟨⟨agenda, rfl⟩, ?_, .singleton t, fun hnone => ?_⟩
    · rintro _ ⟨⟩
      rfl
    · have hnone := hnone t rfl
      rw [hfailed] at hnone
      cases hnone

theorem isRun_of_running (hrunning : (t.outcome c phase).failure = none) :
    IsRun c phase t.feature (t.job :: agenda) turns ↔
      ∃ rest, turns = t :: rest ∧ IsRun c phase (t.outcome c phase).feature agenda rest := by
  constructor
  · intro h
    obtain ⟨rest, rfl⟩ := h.exists_eq_cons
    obtain ⟨hhead, hchain⟩ := List.isChain_cons.1 h.chain
    refine ⟨rest, rfl, (List.cons_prefix_cons.1 h.order).2, fun u hu => (hhead u hu).2, hchain,
      fun hlast => Nat.succ.inj (h.complete fun u hu => ?_)⟩
    cases rest with
    | nil =>
      cases hu
      exact hrunning
    | cons v rest => exact hlast u (by rwa [List.getLast?_cons_cons] at hu)
  · rintro ⟨rest, rfl, h⟩
    refine ⟨List.cons_prefix_cons.2 ⟨rfl, h.order⟩, ?_,
      List.isChain_cons.2 ⟨fun u hu => ⟨hrunning, h.start u hu⟩, h.chain⟩,
      fun hlast => congrArg Nat.succ (h.complete fun u hu => hlast u ?_)⟩
    · rintro _ ⟨⟩
      rfl
    · cases rest with
      | nil => cases hu
      | cons v rest => rwa [List.getLast?_cons_cons]

/-- The turn that a running pass takes. -/
def turn (p : Pass) (job : Extension × String × PostHandler) : Turn :=
  ⟨job.1, job.2.1, job.2.2, p.feature⟩

theorem step_eq_after (hp : p.failure = none) (job : Extension × String × PostHandler) :
    p.step c phase job = p.after c phase [p.turn job] := by
  obtain ⟨e, name, handler⟩ := job
  rw [step_of_running hp, after, List.flatMap_singleton]
  rfl

theorem after_cons (hrunning : (t.outcome c phase).failure = none) (rest : List Turn) :
    p.after c phase (t :: rest) = (p.after c phase [t]).after c phase rest := by
  cases rest with
  | nil => simp [after, hrunning]
  | cons u rest => simp [after, List.getLast?_cons]

/-- What the rest of an agenda does to a running pass: there is one way to run through it, and
the pass ends as that says. -/
theorem exists_isRun_iff (c : MergeSource) (phase : Phase) (p : Pass) (hp : p.failure = none)
    (agenda : List (Extension × String × PostHandler)) :
    ∃ turns, (∀ ts, IsRun c phase p.feature agenda ts ↔ ts = turns) ∧
      agenda.foldl (step c phase) p = p.after c phase turns := by
  -- Each step goes on with the pass after its turn, so the pass has to stay general.
  induction agenda generalizing p with
  | nil =>
    refine ⟨[], fun ts => isRun_nil_iff, ?_⟩
    obtain ⟨feature, _, log, calls⟩ := p
    obtain rfl : _ = none := hp
    simp [after]
  | cons job agenda ih =>
    rw [List.foldl_cons, step_eq_after hp]
    cases hfailure : ((p.turn job).outcome c phase).failure with
    | some failure =>
      refine ⟨[p.turn job], fun ts => isRun_of_failed hfailure, foldl_of_failed ?_ agenda⟩
      exact Option.ne_none_iff_exists'.2 ⟨failure, hfailure⟩
    | none =>
      obtain ⟨rest, hrun, hfold⟩ := ih (p.after c phase [p.turn job]) hfailure
      refine ⟨p.turn job :: rest, fun ts => ?_, hfold.trans (after_cons hfailure rest).symm⟩
      refine (isRun_of_running hfailure).trans ⟨?_, ?_⟩
      · rintro ⟨ts, rfl, hts⟩
        rw [(hrun ts).1 hts]
      · rintro rfl
        exact ⟨rest, rfl, (hrun rest).2 rfl⟩

end Pass

/-- A pass visits each extension that the feature has when it begins with each handler, and is
what its turns leave. Nothing but a failure, which is then its last turn's, cuts it short. -/
theorem postProcess_turns (c : MergeSource) (phase : Phase) (f : Feature) :
    ∃ turns, (∀ ts, Pass.IsRun c phase f (f.extensions ×ˢ c.postHandlers.entries) ts ↔ ts = turns) ∧
      postProcess c phase f = Pass.after c phase { feature := f } turns ∧
      ((postProcess c phase f).failure = none →
        turns.length = f.extensions.length * c.postHandlers.size) := by
  obtain ⟨turns, hrun, hpass⟩ : ∃ turns,
      (∀ ts, Pass.IsRun c phase f (f.extensions ×ˢ c.postHandlers.entries) ts ↔ ts = turns) ∧
      postProcess c phase f = Pass.after c phase { feature := f } turns :=
    Pass.exists_isRun_iff c phase { feature := f } rfl (c.agenda f)
  refine ⟨turns, hrun, hpass, fun hfailure => ?_⟩
  have hturns : Pass.IsRun c phase f (f.extensions ×ˢ c.postHandlers.entries) turns :=
    (hrun turns).2 rfl
  rw [hturns.complete, List.length_product]
  · rfl
  · intro t ht
    have hlast : (postProcess c phase f).failure = turns.getLast?.bind _ :=
      congrArg Pass.failure hpass
    rw [hfailure, Option.mem_def.1 ht] at hlast
    exact hlast.symm

/-- Extensions that handlers add are not visited. -/
example :
    let grow : PostHandler :=
      { tag := 1
        name := "grow"
        process := fun _ f e => { feature := f.addExtension { e with name := e.name ++ "+" } } }
    let c : MergeSource :=
      { featureProvider := .none 0
        postHandlers := ⟨[("grow", grow), ("p", Handler.postRecorder 2 "p" .shared)]⟩ }
    let f := (Feature.bare ⟨"g", "a", "1", "jar", none⟩).addExtension { name := "x", kind := .text }
    (postProcess c .initial f).calls.map (·.extension.name) = ["x", "x"] ∧
    (postProcess c .initial f).feature.extensions.map (·.name) = ["x", "x+"] := by decide

end FeatureMerge
