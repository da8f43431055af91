import FeatureMerge.Handler.Failing
import FeatureMerge.Handler.Recording
import FeatureMerge.Proofs.Context.Family
import FeatureMerge.Proofs.Dispatch.Calls

/-!
# Logs of instrumented contexts

Where all handlers record into one log or fail, `Leaves` says what a single job leaves in the
log and what it answers. The log of a run is what its jobs leave, one after another, on
whichever contexts of a family they run (`World.log_run`).
-/

namespace FeatureMerge

/-! ## Instruments -/

namespace MergeHandler

def IsRecorder (log : LogId) (h : MergeHandler) : Prop :=
  ∃ tag name extensions, h = Handler.recorder tag name extensions log

def IsFailing (h : MergeHandler) : Prop := ∃ tag name, h = Handler.failing tag name

end MergeHandler

namespace PostHandler

def IsRecorder (log : LogId) (h : PostHandler) : Prop :=
  ∃ tag name, h = Handler.postRecorder tag name log

def IsFailing (h : PostHandler) : Prop := ∃ tag name, h = Handler.postFailing tag name

end PostHandler

/-- Every handler records into `log` or fails. -/
structure MergeSource.IsInstrumented (log : LogId) (c : MergeSource) : Prop where
  merge : ∀ entry ∈ c.mergeHandlers.entries, entry.2.IsRecorder log ∨ entry.2.IsFailing
  post : ∀ entry ∈ c.postHandlers.entries, entry.2.IsRecorder log ∨ entry.2.IsFailing

/-- The record of a call on the context, with the handler's own block. -/
def MergeSource.entry (c : MergeSource) (log : LogId) (phase : Phase) (e : Extension)
    (id : ArtifactId) (name : String) : LogEntry where
  log := log
  invocation :=
    { handler := name
      extension := e.name
      feature := id
      phase := phase
      configuration := (c.blocks.get? name).getD .empty
      hasArtifactProvider := c.artifactProvider.isSome }

/-- What a merge logs, and its verdict: the first handler that claims the extension decides. -/
inductive MergeLeaves (log : LogId) (c : MergeSource) (phase : Phase) (source : Feature)
    (e : Extension) : List LogEntry → Verdict → Prop where
  | unclaimed :
      (∀ entry ∈ c.mergeHandlers.entries, ¬ entry.2.claims e) →
      MergeLeaves log c phase source e [] .unclaimed
  | recorded {before after : List (String × MergeHandler)} {name : String} {h : MergeHandler} :
      c.mergeHandlers.entries = before ++ (name, h) :: after →
      (∀ entry ∈ before, ¬ entry.2.claims e) → h.claims e → h.IsRecorder log →
      MergeLeaves log c phase source e [c.entry log phase e source.id name] .merged
  | rejected {before after : List (String × MergeHandler)} {name : String} {h : MergeHandler} :
      c.mergeHandlers.entries = before ++ (name, h) :: after →
      (∀ entry ∈ before, ¬ entry.2.claims e) → h.claims e → h.IsFailing →
      MergeLeaves log c phase source e [] (.failed (Handler.rejection name e source.id))

/-- What a pass logs, and its failure. One that fails ends at its first extension. -/
inductive PassLeaves (log : LogId) (c : MergeSource) (phase : Phase) (f : Feature) :
    List LogEntry → Option Failure → Prop where
  | passed :
      (∀ entry ∈ c.postHandlers.entries, ¬ entry.2.IsFailing) →
      PassLeaves log c phase f
        (f.extensions.flatMap fun e => c.postHandlers.names.map (c.entry log phase e f.id)) none
  | stopped {e : Extension} {es : List Extension} {before after : List (String × PostHandler)}
      {name : String} {h : PostHandler} :
      c.postHandlers.entries = before ++ (name, h) :: after →
      (∀ entry ∈ before, ¬ entry.2.IsFailing) → h.IsFailing → f.extensions = e :: es →
      PassLeaves log c phase f (before.map fun entry => c.entry log phase e f.id entry.1)
        (some (Handler.rejection name e f.id))
  | idle :
      (∃ entry ∈ c.postHandlers.entries, entry.2.IsFailing) → f.extensions = [] →
      PassLeaves log c phase f [] none

section

variable {log : LogId} {c : MergeSource}

theorem mergeLeaves_mergeExtension (hnames : c.HasOwnNames) (hc : c.IsInstrumented log)
    (phase : Phase) (target source : Feature) (e : Extension) :
    let r := mergeExtension c phase target source e
    MergeLeaves log c phase source e r.log r.verdict := by
  rcases mergeExtension_cases c phase target source e with
    ⟨h, hresult⟩ | ⟨before, name, handler, after, hsplit, hbefore, hclaims, hresult⟩
  · rw [hresult]
    exact .unclaimed h
  · have hmem : (name, handler) ∈ c.mergeHandlers.entries := by simp [hsplit]
    have hname : name = handler.name := hnames.merge _ hmem
    rw [hresult]
    rcases hc.merge _ hmem with ⟨tag, own, extensions, rfl⟩ | ⟨tag, own, rfl⟩
    · obtain rfl : name = own := hname
      exact .recorded hsplit hbefore hclaims ⟨tag, name, extensions, rfl⟩
    · obtain rfl : name = own := hname
      exact .rejected hsplit hbefore hclaims ⟨tag, name, rfl⟩

/-- Recorders leave the feature alone and go on. -/
theorem Pass.foldl_of_recorders (c : MergeSource) (phase : Phase) {p : Pass}
    {agenda : List (Extension × String × PostHandler)} (hp : p.failure = none)
    (h : ∀ next ∈ agenda, ∃ tag, next.2.2 = Handler.postRecorder tag next.2.1 log) :
    let q := agenda.foldl (step c phase) p
    q.failure = none ∧ q.feature = p.feature ∧
      q.log = p.log ++ agenda.map fun next => c.entry log phase next.1 p.feature.id next.2.1 := by
  induction agenda generalizing p with
  | nil => exact ⟨hp, rfl, (List.append_nil _).symm⟩
  | cons next agenda ih =>
    obtain ⟨e, name, handler⟩ := next
    obtain ⟨⟨tag, hhandler⟩, hrest⟩ := List.forall_mem_cons.1 h
    obtain rfl : handler = Handler.postRecorder tag name log := hhandler
    rw [List.foldl_cons, step_of_running hp]
    simp only
    obtain ⟨hfailure, hfeature, hlog⟩ := ih (p := ⟨_, _, _, _⟩) rfl hrest
    refine ⟨hfailure, hfeature, hlog.trans ?_⟩
    rw [List.map_cons, List.append_assoc]
    rfl

/-- The pass ends at a failing handler, whatever stands behind it. -/
theorem Pass.foldl_of_failing (c : MergeSource) (phase : Phase) {p : Pass}
    {agenda : List (Extension × String × PostHandler)} (hp : p.failure = none)
    (h : ∀ next ∈ agenda, ∃ tag, next.2.2 = Handler.postRecorder tag next.2.1 log)
    (e : Extension) (name : String) (tag : Tag)
    (rest : List (Extension × String × PostHandler)) :
    let q := (agenda ++ (e, name, Handler.postFailing tag name) :: rest).foldl (step c phase) p
    q.failure = some (Handler.rejection name e p.feature.id) ∧
      q.log = p.log ++ agenda.map fun next => c.entry log phase next.1 p.feature.id next.2.1 := by
  obtain ⟨hrunning, hfeature, hlog⟩ := foldl_of_recorders c phase hp h
  rw [List.foldl_append, List.foldl_cons, step_of_running hrunning, foldl_of_failed, ← hlog,
    ← hfeature]
  · exact ⟨rfl, List.append_nil _⟩
  · exact Option.some_ne_none _

theorem passLeaves_postProcess (hnames : c.HasOwnNames) (hc : c.IsInstrumented log)
    (phase : Phase) (f : Feature) :
    let p := postProcess c phase f
    PassLeaves log c phase f p.log p.failure := by
  have hrecorder : ∀ entry ∈ c.postHandlers.entries, ¬ entry.2.IsFailing →
      ∃ tag, entry.2 = Handler.postRecorder tag entry.1 log := by
    rintro ⟨name, handler⟩ hmem hnot
    obtain ⟨tag, own, rfl⟩ := (hc.post _ hmem).resolve_right hnot
    obtain rfl : name = own := hnames.post _ hmem
    exact ⟨tag, rfl⟩
  simp only [postProcess]
  rcases forall_not_or_exists_first (fun entry => entry.2.IsFailing) c.postHandlers.entries with
    h | ⟨before, ⟨name, handler⟩, after, hsplit, hbefore, hfail⟩
  · have hagenda : ∀ next ∈ c.agenda f,
        ∃ tag, next.2.2 = Handler.postRecorder tag next.2.1 log := by
      simp only [MergeSource.agenda, List.mem_flatMap, List.mem_map]
      rintro _ ⟨e, -, entry, hmem, rfl⟩
      exact hrecorder entry hmem (h entry hmem)
    obtain ⟨hfailure, -, hlog⟩ := Pass.foldl_of_recorders c phase (p := ⟨f, _, _, _⟩) rfl hagenda
    rw [hfailure, hlog, List.nil_append, c.map_agenda f fun e name => c.entry log phase e f.id name]
    exact .passed h
  · have hmem : (name, handler) ∈ c.postHandlers.entries := hsplit ▸ List.mem_append_cons_self
    cases hes : f.extensions with
    | nil =>
      rw [MergeSource.agenda, hes, List.flatMap_nil]
      exact .idle ⟨_, hmem, hfail⟩ hes
    | cons e es =>
      -- The first extension already meets the failing handler, so no other one is visited.
      obtain ⟨rest, hagenda⟩ := MergeSource.exists_agenda_eq hes hsplit
      have hbefore' : ∀ next ∈ before.map (e, ·),
          ∃ tag, next.2.2 = Handler.postRecorder tag next.2.1 log :=
        List.forall_mem_map.2 fun entry hentry =>
          hrecorder entry (hsplit ▸ List.mem_append_left _ hentry) (hbefore entry hentry)
      obtain ⟨tag, own, rfl⟩ := hfail
      obtain rfl : name = own := hnames.post _ hmem
      obtain ⟨hfailure, hlog⟩ :=
        Pass.foldl_of_failing c phase (p := ⟨f, _, _, _⟩) rfl hbefore' e name tag rest
      rw [hagenda, hfailure, hlog, List.nil_append, List.map_map]
      exact .stopped hsplit hbefore ⟨tag, name, rfl⟩ hes

end

/-! ## Jobs -/

/-- A call of one of the two entry points on a context and a feature of the world. -/
inductive Job where
  | merge (c : MergeContext) (phase : Phase) (slot : String) (source : Feature) (e : Extension)
  | postProcess (c : MergeContext) (phase : Phase) (slot : String)

def Job.context : Job → MergeContext
  | merge c .. | postProcess c .. => c

inductive Answer where
  | merged (verdict : Verdict)
  | processed (failure : Option Failure)

/-- The features that jobs work on, and the log. -/
structure World where
  feature : String → Feature
  log : List LogEntry

namespace World

def put (w : World) (slot : String) (f : Feature) (log : List LogEntry) : World where
  feature s := if s = slot then f else w.feature s
  log := w.log ++ log

def take (w : World) : Job → World × Answer
  | .merge c phase slot source e =>
    let r := mergeExtension c.toMergeSource phase (w.feature slot) source e
    (w.put slot r.target r.log, .merged r.verdict)
  | .postProcess c phase slot =>
    let p := postProcess c.toMergeSource phase (w.feature slot)
    (w.put slot p.feature p.log, .processed p.failure)

def run (w : World) (jobs : List Job) : World := jobs.foldl (fun w job => (w.take job).1) w

/-- The jobs of a run, each with the world that it finds. -/
def stages (w : World) : List Job → List (World × Job)
  | [] => []
  | job :: jobs => (w, job) :: (w.take job).1.stages jobs

/-- What a job leaves in the log, and its answer. -/
def Leaves (log : LogId) (w : World) : Job → List LogEntry → Answer → Prop
  | .merge c phase _ source e, entries, .merged verdict =>
    MergeLeaves log c.toMergeSource phase source e entries verdict
  | .postProcess c phase slot, entries, .processed failure =>
    PassLeaves log c.toMergeSource phase (w.feature slot) entries failure
  | _, _, _ => False

variable {w : World} {log : LogId} {job : Job} {jobs : List Job}

theorem exists_leaves_take (hnames : job.context.HasOwnNames)
    (hc : job.context.IsInstrumented log) :
    ∃ entries, (w.take job).1.log = w.log ++ entries ∧ w.Leaves log job entries (w.take job).2 := by
  cases job with
  | merge c phase slot source e =>
    exact ⟨_, rfl, mergeLeaves_mergeExtension hnames hc phase (w.feature slot) source e⟩
  | postProcess c phase slot =>
    exact ⟨_, rfl, passLeaves_postProcess hnames hc phase (w.feature slot)⟩

theorem exists_leaves_run
    (h : ∀ job ∈ jobs, job.context.HasOwnNames ∧ job.context.IsInstrumented log) :
    ∃ parts, (w.run jobs).log = w.log ++ parts.flatten ∧
      List.Forall₂ (fun stage part => stage.1.Leaves log stage.2 part (stage.1.take stage.2).2)
        (w.stages jobs) parts := by
  induction jobs generalizing w with
  | nil => exact ⟨[], (List.append_nil _).symm, .nil⟩
  | cons job jobs ih =>
    obtain ⟨⟨hnames, hc⟩, hrest⟩ := List.forall_mem_cons.1 h
    obtain ⟨part, hlog, hpart⟩ := exists_leaves_take (w := w) hnames hc
    obtain ⟨parts, hrun, hparts⟩ := ih (w := (w.take job).1) hrest
    refine ⟨part :: parts, ?_, .cons hpart hparts⟩
    rw [List.flatten_cons, ← List.append_assoc, ← hlog]
    exact hrun

/-- The log of a run is what its jobs leave, call by call. -/
theorem log_run {root : MergeContext} {es : List Edit}
    (hroot : (Builder.fresh.edits es).build = .ok root)
    (hfamily : ∀ job ∈ jobs, root.Family job.context)
    (hc : ∀ job ∈ jobs, job.context.IsInstrumented log) :
    ∃ parts, (w.run jobs).log = w.log ++ parts.flatten ∧
      List.Forall₂ (fun stage part => stage.1.Leaves log stage.2 part (stage.1.take stage.2).2)
        (w.stages jobs) parts := by
  have hnames : root.HasOwnNames := Builder.hasOwnNames_of_build Builder.hasOwnNames_fresh hroot
  exact exists_leaves_run fun job hjob => ⟨(hfamily job hjob).hasOwnNames hnames, hc job hjob⟩

/-- A merge on the root is recorded, one on a fork is rejected, a pass on the fork is stopped. -/
theorem log_run_fork :
    let edits : List Edit := [.operation (.featureProvider (.echo 0)),
      .operation (.mergeHandlers [Handler.recorder 1 "r" ["x"] .shared, Handler.failing 2 "f"]),
      .operation (.postHandlers [Handler.postRecorder 3 "p" .shared, Handler.postFailing 4 "q"])]
    let root := (Builder.fresh.edits edits).assemble (.echo 0)
    let x : Extension := { name := "x", kind := .text }
    let y : Extension := { name := "y", kind := .json }
    let f := Feature.bare ⟨"g", "a", "1", "jar", none⟩
    let fork := root.fork (.echo 5)
    let jobs : List Job := [.merge root .initial "t" f x, .merge fork .subsequent "t" f y,
      .postProcess fork .initial "t"]
    let w : World := ⟨fun _ => f, []⟩
    (Builder.fresh.edits edits).build = .ok root ∧
    (∀ job ∈ jobs, root.Family job.context) ∧
    (∀ job ∈ jobs, job.context.IsInstrumented .shared) ∧
    (w.run jobs).log.map (·.invocation.handler) = ["r", "p"] ∧
    ∃ parts, (w.run jobs).log = w.log ++ parts.flatten ∧
      List.Forall₂ (fun stage part => stage.1.Leaves .shared stage.2 part (stage.1.take stage.2).2)
        (w.stages jobs) parts := by
  intro edits root x y f fork jobs w
  have hroot : (Builder.fresh.edits edits).build = .ok root := rfl
  have hunder : MergeContext.Level.Under ⟨edits, root⟩ ⟨[], fork⟩ := .fork _
  have hfork : root.Family fork := .under .root hunder
  have hfamily : ∀ job ∈ jobs, root.Family job.context :=
    List.forall_mem_cons.2
      ⟨.root, List.forall_mem_cons.2 ⟨hfork, List.forall_mem_singleton.2 hfork⟩⟩
  have hinstruments : root.IsInstrumented .shared := by
    constructor
    · exact List.forall_mem_cons.2 ⟨.inl ⟨1, "r", ["x"], rfl⟩,
        List.forall_mem_singleton.2 (.inr ⟨2, "f", rfl⟩)⟩
    · exact List.forall_mem_cons.2 ⟨.inl ⟨3, "p", rfl⟩,
        List.forall_mem_singleton.2 (.inr ⟨4, "q", rfl⟩)⟩
  have hforked : fork.IsInstrumented .shared := ⟨hinstruments.merge, hinstruments.post⟩
  have hc : ∀ job ∈ jobs, job.context.IsInstrumented .shared :=
    List.forall_mem_cons.2 ⟨hinstruments,
      List.forall_mem_cons.2 ⟨hforked, List.forall_mem_singleton.2 hforked⟩⟩
  exact ⟨hroot, hfamily, hc, rfl, log_run hroot hfamily hc⟩

end World

end FeatureMerge
