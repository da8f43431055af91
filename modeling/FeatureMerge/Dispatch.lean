import FeatureMerge.Context.Basic

/-!
# Dispatch

`mergeExtension` hands an extension to the first handler that claims it, and to
no other. `postProcess` runs all post handlers over the extensions that a
feature has when the pass begins, and stops at the first failure.
-/

namespace FeatureMerge

/-! ## Merging -/

/-- How the merge of one extension went. -/
inductive Verdict where
  | unclaimed
  | merged
  | failed (failure : Failure)
  deriving DecidableEq

/-- The end of a merge: the verdict, the target as it was left, and what was logged. -/
structure MergeResult where
  verdict : Verdict
  target : Feature
  log : List LogEntry
  deriving DecidableEq

namespace MergeResult

def ofOutcome (o : Outcome) : MergeResult where
  verdict := o.failure.elim .merged .failed
  target := o.feature
  log := o.log

end MergeResult

/-- The first handler that claims an extension, and the name that it is registered under. -/
def MergeSource.claimant? (c : MergeSource) (e : Extension) : Option (String × MergeHandler) :=
  c.mergeHandlers.entries.find? fun entry => entry.2.claims e

/-- Merges an extension of the source into the target. -/
def mergeExtension (c : MergeSource) (phase : Phase) (target source : Feature) (e : Extension) :
    MergeResult :=
  match c.claimant? e with
  | none => ⟨.unclaimed, target, []⟩
  | some (name, handler) =>
    .ofOutcome (handler.merge (c.handlerContext name phase) target source e)

/-! ## Post-processing -/

/-- One call of a post handler as it is made. -/
structure Call where
  handler : String
  extension : Extension
  feature : Feature
  context : HandlerContext

/-- A pass of post handlers so far. -/
structure Pass where
  feature : Feature
  failure : Option Failure := none
  log : List LogEntry := []
  calls : List Call := []

namespace Pass

/-- Goes on with one handler and extension, unless a handler has failed. -/
def step (c : MergeSource) (phase : Phase) (p : Pass)
    (next : Extension × (String × PostHandler)) : Pass :=
  match p.failure with
  | some _ => p
  | none =>
    let (e, name, handler) := next
    let context := c.handlerContext name phase
    let o := handler.process context p.feature e
    { feature := o.feature
      failure := o.failure
      log := p.log ++ o.log
      calls := p.calls ++ [⟨name, e, p.feature, context⟩] }

end Pass

/-- All calls of a pass in order: extension by extension, and for each the handlers. -/
def MergeSource.agenda (c : MergeSource) (f : Feature) :
    List (Extension × (String × PostHandler)) :=
  f.extensions.flatMap fun e => c.postHandlers.entries.map fun entry => (e, entry)

def postProcess (c : MergeSource) (phase : Phase) (f : Feature) : Pass :=
  (c.agenda f).foldl (Pass.step c phase) { feature := f }

end FeatureMerge
