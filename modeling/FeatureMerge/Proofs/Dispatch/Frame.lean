import FeatureMerge.Proofs.Dispatch.Contributions
import FeatureMerge.Proofs.Dispatch.Log
import Mathlib.Data.List.Nodup

/-!
# What merges leave alone

`Feature.AgreesOutside` says that two features differ at most in the extensions of some names, and
`Feature.KeepsPlaces` that extensions stay where they are and what they are. A merge by recorders
and failing handlers reaches for one name only, and changes nothing unless it succeeds
(`MergeCall.Spares`). So no run of merges gives two extensions one name, and what none of its
merges names is the same as before (`MergeCall.run_spares`).
-/

namespace FeatureMerge

/-- What an extension is, whatever it holds. -/
def Extension.header (e : Extension) : String × ExtensionKind × ExtensionState :=
  (e.name, e.kind, e.state)

namespace Feature

def extensionNames (f : Feature) : List String := f.extensions.map (·.name)

/-- The features differ at most in the extensions of these names: the others are equal and in the
same order, and so is all that is no extension. -/
structure AgreesOutside (names : List String) (f g : Feature) : Prop where
  others : g.extensions.filter (·.name ∉ names) = f.extensions.filter (·.name ∉ names)
  fields : { g with extensions := f.extensions } = f

/-- Every extension of `f` has its position in `g`, too, with its name, kind and state. -/
def KeepsPlaces (f g : Feature) : Prop :=
  f.extensions.map Extension.header <+: g.extensions.map Extension.header

variable {names names' : List String} {f g h : Feature}

theorem AgreesOutside.refl (names : List String) (f : Feature) : f.AgreesOutside names f :=
  ⟨rfl, rfl⟩

theorem AgreesOutside.trans (hfg : f.AgreesOutside names g) (hgh : g.AgreesOutside names h) :
    f.AgreesOutside names h := by
  refine ⟨hgh.others.trans hfg.others, ?_⟩
  calc { h with extensions := f.extensions }
      = { { h with extensions := g.extensions } with extensions := f.extensions } := rfl
    _ = { g with extensions := f.extensions } := by rw [hgh.fields]
    _ = f := hfg.fields

theorem AgreesOutside.mono (hfg : f.AgreesOutside names g) (hsubset : names ⊆ names') :
    f.AgreesOutside names' g := by
  have hfilter (es : List Extension) : es.filter (·.name ∉ names') =
      (es.filter (·.name ∉ names)).filter (·.name ∉ names') := by
    rw [List.filter_filter]
    refine List.filter_congr fun e _ => ?_
    by_cases he : e.name ∈ names
    · simp [he, hsubset he]
    · simp [he]
  refine ⟨?_, hfg.fields⟩
  rw [hfilter g.extensions, hfilter f.extensions, hfg.others]

end Feature

/-! ## One placement -/

namespace Handler

theorem header_combine (configuration : Properties) (e existing : Extension) :
    (combine configuration e existing).header = existing.header := by
  unfold combine
  cases e.kind <;> rfl

variable (context : HandlerContext) (f : Feature) (e : Extension)

/-- All that can become of an extension: it is put at the end instead of those of its name, or the
first of these is combined with it. -/
theorem place_cases :
    (context.phase.isInitial = true ∨ f.extension? e.name = none) ∧
      place context f e = { f with extensions := f.extensions.filter (·.name ≠ e.name) ++ [e] } ∨
    context.phase.isInitial = false ∧ ∃ before existing after,
      f.extensions = before ++ existing :: after ∧ existing.name = e.name ∧
      place context f e =
        { f with extensions := before ++ combine context.configuration e existing :: after } := by
  by_cases hreplaced : context.phase.isInitial = true ∨ f.extension? e.name = none
  · refine .inl ⟨hreplaced, ?_⟩
    rcases hreplaced with hphase | habsent
    · exact place_of_initial context hphase f
    · exact place_of_absent context habsent
  · obtain ⟨hphase, hpresent⟩ := not_or.1 hreplaced
    obtain ⟨existing, hexisting⟩ := Option.ne_none_iff_exists'.1 hpresent
    obtain ⟨before, after, hsplit, hmodify⟩ :=
      f.exists_modifyExtension_eq (combine context.configuration e) hexisting
    have hphase : context.phase.isInitial = false := Bool.eq_false_iff.2 hphase
    obtain ⟨hname, -⟩ := List.find?_eq_some_iff_append.1 hexisting
    exact .inr ⟨hphase, before, existing, after, hsplit, of_decide_eq_true hname,
      (place_of_existing context hphase hexisting).trans hmodify⟩

theorem agreesOutside_place : f.AgreesOutside [e.name] (place context f e) := by
  rcases place_cases context f e with
    ⟨-, hplace⟩ | ⟨-, before, existing, after, hsplit, hname, hplace⟩
  · rw [hplace]
    refine ⟨?_, rfl⟩
    simp [List.filter_append, List.filter_filter]
  · rw [hplace]
    refine ⟨?_, rfl⟩
    simp [hsplit, hname, name_combine]

theorem mem_extensionNames_place : e.name ∈ (place context f e).extensionNames := by
  rcases place_cases context f e with
    ⟨-, hplace⟩ | ⟨-, before, existing, after, -, hname, hplace⟩
  · simp [hplace, Feature.extensionNames]
  · simp [hplace, Feature.extensionNames, name_combine, hname]

variable {f}

theorem nodup_extensionNames_place (hf : f.extensionNames.Nodup) :
    (place context f e).extensionNames.Nodup := by
  rcases place_cases context f e with
    ⟨-, hplace⟩ | ⟨-, before, existing, after, hsplit, -, hplace⟩
  · have hothers : ((f.extensions.filter (·.name ≠ e.name)).map (·.name)).Nodup :=
      hf.sublist (List.filter_sublist.map _)
    have hfresh : e.name ∉ (f.extensions.filter (·.name ≠ e.name)).map (·.name) := by simp
    simpa [hplace, Feature.extensionNames] using hothers.concat hfresh
  · have hsame : (place context f e).extensionNames = f.extensionNames := by
      simp [hplace, hsplit, Feature.extensionNames, name_combine]
    rwa [hsame]

theorem keepsPlaces_place (hphase : context.phase.isInitial = false) :
    f.KeepsPlaces (place context f e) := by
  rcases place_cases context f e with
    ⟨hreplaced, hplace⟩ | ⟨-, before, existing, after, hsplit, -, hplace⟩
  · have habsent : f.extension? e.name = none :=
      hreplaced.resolve_left (by simp [hphase])
    have hall : f.extensions.filter (·.name ≠ e.name) = f.extensions :=
      List.filter_eq_self.2 fun e' he' => by simpa using List.find?_eq_none.1 habsent e' he'
    rw [Feature.KeepsPlaces, hplace, hall, List.map_append]
    exact List.prefix_append _ _
  · have hsame : (place context f e).extensions.map Extension.header =
        f.extensions.map Extension.header := by
      simp [hplace, hsplit, header_combine]
    simp only [Feature.KeepsPlaces, hsame, List.prefix_rfl]

end Handler

/-! ## Runs of merges -/

/-- Every merge handler records or fails. -/
def MergeSource.RecordsOrFails (c : MergeSource) : Prop :=
  ∀ entry ∈ c.mergeHandlers.entries, (∃ log, entry.2.IsRecorder log) ∨ entry.2.IsFailing

/-- A merge on some context, with a target yet to come. -/
structure MergeCall extends Contribution where
  context : MergeSource

namespace MergeCall

def result (x : MergeCall) (f : Feature) : MergeResult :=
  mergeExtension x.context x.phase f x.source x.extension

/-- The target after calls, one after another. -/
def run (f : Feature) (calls : List MergeCall) : Feature :=
  calls.foldl (fun f x => (x.result f).target) f

/-- What a call leaves alone of its target. -/
structure Spares (x : MergeCall) (f : Feature) : Prop where
  unmerged : (x.result f).verdict ≠ .merged → (x.result f).target = f
  merged : (x.result f).verdict = .merged →
    f.AgreesOutside [x.extension.name] (x.result f).target ∧
      x.extension.name ∈ (x.result f).target.extensionNames
  places : x.phase.isInitial = false → f.KeepsPlaces (x.result f).target

variable {x : MergeCall} {f : Feature} {calls : List MergeCall}

/-- A call does nothing, or a recorder places the extension. -/
theorem result_cases (hx : x.context.RecordsOrFails) (f : Feature) :
    (x.result f).verdict ≠ .merged ∧ (x.result f).target = f ∨
    (x.result f).verdict = .merged ∧ ∃ name, (x.result f).target =
      Handler.place (x.context.handlerContext name x.phase) f x.extension := by
  unfold result
  rcases mergeExtension_cases x.context x.phase f x.source x.extension with
    ⟨-, hresult⟩ | ⟨before, name, handler, after, hsplit, -, -, hresult⟩
  · rw [hresult]
    exact .inl ⟨nofun, rfl⟩
  · rw [hresult]
    rcases hx (name, handler) (by simp [hsplit]) with
      ⟨log, tag, own, extensions, rfl⟩ | ⟨tag, own, rfl⟩
    · exact .inr ⟨rfl, name, rfl⟩
    · exact .inl ⟨nofun, rfl⟩

theorem spares_of_recordsOrFails (hx : x.context.RecordsOrFails) (f : Feature) : x.Spares f := by
  rcases result_cases hx f with ⟨hverdict, htarget⟩ | ⟨hverdict, name, htarget⟩
  · refine ⟨fun _ => htarget, fun hmerged => absurd hmerged hverdict, fun _ => ?_⟩
    rw [htarget]
    exact List.prefix_rfl
  · refine ⟨fun hnot => absurd hverdict hnot, fun _ => ?_, fun hphase => ?_⟩
    · rw [htarget]
      exact ⟨Handler.agreesOutside_place _ f _, Handler.mem_extensionNames_place _ f _⟩
    · rw [htarget]
      exact Handler.keepsPlaces_place _ _ hphase

theorem agreesOutside_target (hx : x.context.RecordsOrFails) (f : Feature) :
    f.AgreesOutside [x.extension.name] (x.result f).target := by
  have hspares := spares_of_recordsOrFails hx f
  by_cases hmerged : (x.result f).verdict = .merged
  · exact (hspares.merged hmerged).1
  · rw [hspares.unmerged hmerged]
    exact .refl _ f

theorem nodup_extensionNames_target (hx : x.context.RecordsOrFails)
    (hf : f.extensionNames.Nodup) : (x.result f).target.extensionNames.Nodup := by
  rcases result_cases hx f with ⟨-, htarget⟩ | ⟨-, name, htarget⟩
  · rwa [htarget]
  · rw [htarget]
    exact Handler.nodup_extensionNames_place _ _ hf

theorem nodup_extensionNames_run (hcalls : ∀ x ∈ calls, x.context.RecordsOrFails)
    (hf : f.extensionNames.Nodup) : (run f calls).extensionNames.Nodup := by
  induction calls generalizing f with
  | nil => exact hf
  | cons x calls ih =>
    obtain ⟨hx, hcalls⟩ := List.forall_mem_cons.1 hcalls
    exact ih hcalls (nodup_extensionNames_target hx hf)

theorem agreesOutside_run (hcalls : ∀ x ∈ calls, x.context.RecordsOrFails) (f : Feature)
    {names : List String} (hnames : ∀ x ∈ calls, x.extension.name ∈ names) :
    f.AgreesOutside names (run f calls) := by
  induction calls generalizing f with
  | nil => exact .refl names f
  | cons x calls ih =>
    obtain ⟨hx, hcalls⟩ := List.forall_mem_cons.1 hcalls
    obtain ⟨hname, hnames⟩ := List.forall_mem_cons.1 hnames
    have hstep : f.AgreesOutside names (x.result f).target :=
      (agreesOutside_target hx f).mono (by simpa using hname)
    exact hstep.trans (ih hcalls _ hnames)

/-- Whatever handlers record or fail, a run of merges keeps the names of extensions distinct and
leaves alone what it does not name, and each of its calls spares what it is given. -/
theorem run_spares (hcalls : ∀ x ∈ calls, x.context.RecordsOrFails)
    (hf : f.extensionNames.Nodup) :
    (run f calls).extensionNames.Nodup ∧
      f.AgreesOutside (calls.map (·.extension.name)) (run f calls) ∧
      ∀ before x after, calls = before ++ x :: after →
        x.Spares (run f before) ∧ (run f before).extensionNames.Nodup := by
  refine ⟨nodup_extensionNames_run hcalls hf,
    agreesOutside_run hcalls f fun x hx => List.mem_map_of_mem hx, ?_⟩
  rintro before x after rfl
  obtain ⟨hbefore, hafter⟩ := List.forall_mem_append.1 hcalls
  exact ⟨spares_of_recordsOrFails (hafter x List.mem_cons_self) _,
    nodup_extensionNames_run hbefore hf⟩

/-- `x` moves to the end and then takes in a contribution of another kind, `z` is rejected on one
context and unclaimed on the other, and `y` stays where it is. -/
theorem run_spares_mixed :
    let recorder := Handler.recorder 1 "r" ["x"] .shared
    let c : MergeSource :=
      { featureProvider := .none 0
        mergeHandlers := ⟨[("r", recorder), ("f", Handler.failing 2 "f")]⟩ }
    let c' : MergeSource :=
      { featureProvider := .none 0
        mergeHandlers := ⟨[("q", Handler.recorder 3 "q" ["y"] (.own 3))]⟩ }
    let id : ArtifactId := ⟨"g", "a", "1", "jar", none⟩
    let text (name t : String) : Extension := { name, kind := .text, text := some t }
    let list (name : String) : Extension := { name, kind := .artifacts, artifacts := [id] }
    let f := Feature.bare id
    let target := { f with extensions := [text "x" "old", text "y" "a", list "z"] }
    let calls : List MergeCall := [⟨⟨.initial, f, text "x" "new"⟩, c⟩,
      ⟨⟨.subsequent, f, list "x"⟩, c⟩, ⟨⟨.subsequent, f, text "z" "t"⟩, c⟩,
      ⟨⟨.initial, f, text "z" "t"⟩, c'⟩, ⟨⟨.prototype false, f, text "y" "b"⟩, c'⟩]
    (∀ x ∈ calls, x.context.RecordsOrFails) ∧ target.extensionNames.Nodup ∧
    (run target calls).extensions =
      [text "y" "a\nb", list "z", { text "x" "new" with artifacts := [id] }] ∧
    (run target calls).extensionNames.Nodup ∧
    target.AgreesOutside ["x", "x", "z", "z", "y"] (run target calls) ∧
    ∀ before x after, calls = before ++ x :: after →
      x.Spares (run target before) ∧ (run target before).extensionNames.Nodup := by
  intro recorder c c' id text list f target calls
  have hc : c.RecordsOrFails := List.forall_mem_cons.2
    ⟨.inl ⟨.shared, 1, "r", ["x"], rfl⟩, List.forall_mem_singleton.2 (.inr ⟨2, "f", rfl⟩)⟩
  have hc' : c'.RecordsOrFails := List.forall_mem_singleton.2 (.inl ⟨.own 3, 3, "q", ["y"], rfl⟩)
  have hcalls : ∀ x ∈ calls, x.context.RecordsOrFails := by simp [calls, hc, hc']
  have htarget : target.extensionNames.Nodup := by decide
  exact ⟨hcalls, htarget, by decide, run_spares hcalls htarget⟩

end MergeCall

end FeatureMerge
