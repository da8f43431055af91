import FeatureMerge.Handler.Recording
import FeatureMerge.Proofs.Dispatch.Calls

/-!
# Contributions to one extension

Features contribute to an extension of a target one after another. Where a recorder merges them,
the first contribution replaces all that the target has under its name, and each further one is
combined with what is there (`MergeSource.named_mergeAll`). So texts are joined, from the first
one that is not empty on, and of documents the last one counts (`MergeSource.mergeAll_joins`).
-/

namespace FeatureMerge

namespace Feature

/-- The extensions of that name. -/
def named (f : Feature) (name : String) : List Extension := f.extensions.filter (·.name = name)

variable (f : Feature) {name : String}

theorem extension?_eq_head? : f.extension? name = (f.named name).head? := by
  rw [named, List.head?_filter, extension?]

theorem extension?_of_named {e : Extension} {es : List Extension} (h : f.named name = e :: es) :
    f.extension? name = some e := by
  rw [extension?_eq_head?, h, List.head?_cons]

theorem named_removeExtension : (f.removeExtension name).named name = [] := by
  simp [named, removeExtension]

theorem named_addExtension (e : Extension) :
    (f.addExtension e).named e.name = f.named e.name ++ [e] := by
  simp [named, addExtension]

theorem named_modifyExtension {change : Extension → Extension}
    (hchange : ∀ e, (change e).name = e.name) :
    (f.modifyExtension name change).named name = (f.named name).modifyHead change := by
  show (modifyExtension.go name change f.extensions).filter _ = (f.extensions.filter _).modifyHead _
  induction f.extensions with
  | nil => rfl
  | cons e es ih =>
    rw [modifyExtension.go]
    by_cases he : e.name = name
    · simp [he, hchange]
    · simp [he, ih]

theorem modifyExtension_go_append {change : Extension → Extension} {e : Extension}
    (he : e.name = name) (after : List Extension) {before : List Extension}
    (hbefore : ∀ e' ∈ before, e'.name ≠ name) :
    modifyExtension.go name change (before ++ e :: after) = before ++ change e :: after := by
  induction before with
  | nil => exact if_pos he
  | cons e' before ih =>
    obtain ⟨he', hbefore⟩ := List.forall_mem_cons.1 hbefore
    rw [List.cons_append, modifyExtension.go, if_neg he', ih hbefore, List.cons_append]

/-- The first extension of its name is changed where it stands. -/
theorem exists_modifyExtension_eq (change : Extension → Extension) {e : Extension}
    (h : f.extension? name = some e) :
    ∃ before after, f.extensions = before ++ e :: after ∧
      f.modifyExtension name change = { f with extensions := before ++ change e :: after } := by
  obtain ⟨hname, before, after, hsplit, hbefore⟩ := List.find?_eq_some_iff_append.1 h
  refine ⟨before, after, hsplit, ?_⟩
  rw [modifyExtension, hsplit, modifyExtension_go_append (of_decide_eq_true hname) after]
  exact fun e' he' => by simpa using hbefore e' he'

end Feature

namespace Handler

variable (configuration : Properties)

theorem name_combine (e existing : Extension) :
    (combine configuration e existing).name = existing.name := by
  unfold combine
  cases e.kind <;> rfl

theorem combine_of_text {e : Extension} (h : e.kind = .text) (existing : Extension) :
    combine configuration e existing =
      { existing with text := some (joinText (separator configuration) existing.text e.text) } := by
  rw [combine, h]

theorem combine_of_json {e : Extension} (h : e.kind = .json) (existing : Extension) :
    combine configuration e existing = { existing with text := e.text } := by
  rw [combine, h]

theorem separator_getD (block : Option Properties) :
    separator (block.getD .empty) = (block.bind (·.get? "separator")).getD "\n" := by
  cases block <;> rfl

/-! ## In its place -/

variable (context : HandlerContext) {e : Extension}

theorem place_of_initial (h : context.phase.isInitial = true) (target : Feature) :
    place context target e = (target.removeExtension e.name).addExtension e := by
  rw [place, h, Bool.true_or, if_pos rfl]

theorem place_of_absent {target : Feature} (h : target.extension? e.name = none) :
    place context target e = (target.removeExtension e.name).addExtension e := by
  rw [place, h, Option.isNone_none, Bool.or_true, if_pos rfl]

theorem place_of_existing (h : context.phase.isInitial = false) {target : Feature}
    {existing : Extension} (hexisting : target.extension? e.name = some existing) :
    place context target e =
      target.modifyExtension e.name (combine context.configuration e) := by
  rw [place, h, hexisting, Option.isNone_some, Bool.or_false, if_neg Bool.false_ne_true]

theorem named_place_of_initial (h : context.phase.isInitial = true) (target : Feature) :
    (place context target e).named e.name = [e] := by
  rw [place_of_initial context h, Feature.named_addExtension, Feature.named_removeExtension,
    List.nil_append]

theorem named_place_of_existing (h : context.phase.isInitial = false) {target : Feature}
    {existing : Extension} (hexisting : target.named e.name = [existing]) :
    (place context target e).named e.name = [combine context.configuration e existing] := by
  rw [place_of_existing context h (target.extension?_of_named hexisting),
    Feature.named_modifyExtension _ (name_combine context.configuration e), hexisting]
  rfl

/-! ## Several contributions -/

/-- What is there, combined with contributions one after another. -/
def combineAll (configuration : Properties) (existing : Extension) (es : List Extension) :
    Extension :=
  es.foldl (fun existing e => combine configuration e existing) existing

/-- Texts with a separator between them; empty ones count from the first other one on. -/
def joinTexts (separator : String) (texts : List String) : String :=
  String.intercalate separator (texts.dropWhile (· = ""))

theorem joinTexts_singleton (separator text : String) : joinTexts separator [text] = text := by
  by_cases h : text = "" <;> simp [joinTexts, h]

theorem joinTexts_cons_cons (separator : String) (text text' : Option String)
    (texts : List String) :
    joinTexts separator (text.getD "" :: text'.getD "" :: texts) =
      joinTexts separator (joinText separator text text' :: texts) := by
  rw [joinText]
  by_cases h : text.getD "" = ""
  · simp [joinTexts, h]
  · simp [joinTexts, h, String.append_assoc]

theorem combineAll_cons (existing e : Extension) (es : List Extension) :
    combineAll configuration existing (e :: es) =
      combineAll configuration (combine configuration e existing) es :=
  rfl

theorem combineAll_of_texts {es : List Extension} (h : ∀ e ∈ es, e.kind = .text)
    (existing : Extension) :
    combineAll configuration existing es =
        { existing with text := (combineAll configuration existing es).text } ∧
      (combineAll configuration existing es).text.getD "" =
        joinTexts (separator configuration) ((existing :: es).map fun e => e.text.getD "") := by
  induction es generalizing existing with
  | nil => exact ⟨rfl, (joinTexts_singleton _ _).symm⟩
  | cons e es ih =>
    obtain ⟨he, hes⟩ := List.forall_mem_cons.1 h
    obtain ⟨hothers, htext⟩ := ih hes (combine configuration e existing)
    rw [combineAll_cons]
    constructor
    · rw [hothers, combine_of_text configuration he]
    · rw [htext, combine_of_text configuration he]
      exact (joinTexts_cons_cons _ _ _ _).symm

theorem combineAll_of_json {es : List Extension} (h : ∀ e ∈ es, e.kind = .json)
    (existing : Extension) :
    combineAll configuration existing es =
      { existing with text := (es.getLast?.getD existing).text } := by
  induction es generalizing existing with
  | nil => rfl
  | cons e es ih =>
    obtain ⟨he, hes⟩ := List.forall_mem_cons.1 h
    rw [combineAll_cons, ih hes, combine_of_json configuration he, List.getLast?_cons]
    cases es.getLast? <;> rfl

end Handler

/-! ## Merging them -/

/-- An extension of a source, and the phase that it is merged in. -/
structure Contribution where
  phase : Phase
  source : Feature
  extension : Extension

namespace MergeSource

/-- The target after the contributions, merged one after another. -/
def mergeAll (c : MergeSource) (target : Feature) (xs : List Contribution) : Feature :=
  xs.foldl (fun f x => (mergeExtension c x.phase f x.source x.extension).target) target

/-- The first handler that claims the extension is a recorder, and registered under that name. -/
def RecordsAs (c : MergeSource) (registered : String) (e : Extension) : Prop :=
  ∃ (before after : List (String × MergeHandler)) (tag : Tag) (own : String)
    (extensions : List String) (log : LogId),
    c.mergeHandlers.entries =
        before ++ (registered, Handler.recorder tag own extensions log) :: after ∧
      (∀ entry ∈ before, ¬ entry.2.claims e) ∧ e.name ∈ extensions

variable {c : MergeSource} {registered name : String}

theorem mergeExtension_of_recordsAs {e : Extension} (h : c.RecordsAs registered e) (phase : Phase)
    (target source : Feature) :
    (mergeExtension c phase target source e).verdict = .merged ∧
      (mergeExtension c phase target source e).target =
        Handler.place (c.handlerContext registered phase) target e := by
  obtain ⟨before, after, tag, own, extensions, log, hsplit, hbefore, hname⟩ := h
  rw [mergeExtension_of_first hsplit hbefore (decide_eq_true hname)]
  exact ⟨rfl, rfl⟩

theorem mergeAll_cons {x : Contribution} (h : c.RecordsAs registered x.extension)
    (target : Feature) (xs : List Contribution) :
    c.mergeAll target (x :: xs) =
      c.mergeAll (Handler.place (c.handlerContext registered x.phase) target x.extension) xs := by
  rw [← (mergeExtension_of_recordsAs h x.phase target x.source).2]
  rfl

/-- Further contributions are combined with the only extension of their name. -/
theorem named_mergeAll_of_existing {xs : List Contribution}
    (hrecords : ∀ x ∈ xs, c.RecordsAs registered x.extension)
    (hname : ∀ x ∈ xs, x.extension.name = name) (hphase : ∀ x ∈ xs, x.phase.isInitial = false)
    {target : Feature} {existing : Extension} (hexisting : target.named name = [existing]) :
    (c.mergeAll target xs).named name =
      [Handler.combineAll ((c.blocks.get? registered).getD .empty) existing
        (xs.map (·.extension))] := by
  induction xs generalizing target existing with
  | nil => exact hexisting
  | cons x xs ih =>
    obtain ⟨hx, hrecords⟩ := List.forall_mem_cons.1 hrecords
    obtain ⟨rfl, hname⟩ := List.forall_mem_cons.1 hname
    obtain ⟨hinitial, hphase⟩ := List.forall_mem_cons.1 hphase
    rw [mergeAll_cons hx]
    refine ih hrecords hname hphase ?_
    exact Handler.named_place_of_existing (c.handlerContext registered _) hinitial hexisting

/-- The first contribution replaces what is there under its name, and the others are combined
with it. -/
theorem named_mergeAll (target : Feature) {first : Contribution} {rest : List Contribution}
    (hrecords : ∀ x ∈ first :: rest, c.RecordsAs registered x.extension)
    (hname : ∀ x ∈ first :: rest, x.extension.name = name)
    (hfirst : first.phase.isInitial = true) (hrest : ∀ x ∈ rest, x.phase.isInitial = false) :
    (c.mergeAll target (first :: rest)).named name =
      [Handler.combineAll ((c.blocks.get? registered).getD .empty) first.extension
        (rest.map (·.extension))] := by
  obtain ⟨hx, hrecords⟩ := List.forall_mem_cons.1 hrecords
  obtain ⟨rfl, hname⟩ := List.forall_mem_cons.1 hname
  rw [mergeAll_cons hx]
  refine named_mergeAll_of_existing hrecords hname hrest ?_
  exact Handler.named_place_of_initial (c.handlerContext registered _) hfirst target

/-- Recorders accept every contribution. Of texts the target has the join in the end, with the
separator that the recorder's block sets, and of documents the last one; the rest is that of the
first contribution. -/
theorem mergeAll_joins (target : Feature) {first : Contribution} {rest : List Contribution}
    (hrecords : ∀ x ∈ first :: rest, c.RecordsAs registered x.extension)
    (hname : ∀ x ∈ first :: rest, x.extension.name = name)
    (hfirst : first.phase.isInitial = true) (hrest : ∀ x ∈ rest, x.phase.isInitial = false) :
    (∀ x ∈ first :: rest, ∀ f : Feature,
        (mergeExtension c x.phase f x.source x.extension).verdict = .merged) ∧
      ((∀ x ∈ first :: rest, x.extension.kind = .text) →
        ∃ e, (c.mergeAll target (first :: rest)).named name = [e] ∧
          e = { first.extension with text := e.text } ∧
          e.text.getD "" =
            Handler.joinTexts (((c.blocks.get? registered).bind (·.get? "separator")).getD "\n")
              ((first :: rest).map fun x => x.extension.text.getD "")) ∧
      ((∀ x ∈ first :: rest, x.extension.kind = .json) →
        (c.mergeAll target (first :: rest)).named name =
          [{ first.extension with text := (rest.getLast?.getD first).extension.text }]) := by
  have hnamed := named_mergeAll target hrecords hname hfirst hrest
  refine ⟨fun x hx f => (mergeExtension_of_recordsAs (hrecords x hx) _ _ _).1, fun h => ?_,
    fun h => ?_⟩
  · have htexts : ∀ e ∈ rest.map (·.extension), e.kind = .text :=
      List.forall_mem_map.2 (List.forall_mem_cons.1 h).2
    obtain ⟨hothers, htext⟩ := Handler.combineAll_of_texts
      ((c.blocks.get? registered).getD .empty) htexts first.extension
    refine ⟨_, hnamed, hothers, ?_⟩
    rw [htext, Handler.separator_getD, List.map_cons, List.map_cons, List.map_map,
      Function.comp_def]
  · have hdocuments : ∀ e ∈ rest.map (·.extension), e.kind = .json :=
      List.forall_mem_map.2 (List.forall_mem_cons.1 h).2
    rw [hnamed, Handler.combineAll_of_json _ hdocuments, List.getLast?_map]
    cases rest.getLast? <;> rfl

/-- A missing text before the first one leaves no trace, and one behind it leaves a separator. -/
theorem mergeAll_joins_around_missing :
    let other := Handler.recorder 2 "other" ["y"] .shared
    let recorder := Handler.recorder 1 "recorder" ["x"] .shared
    let c : MergeSource :=
      { featureProvider := .none 0
        mergeHandlers := ⟨[("other", other), ("r", recorder), ("s", recorder)]⟩
        blocks := .ofList [("other", .ofList [("separator", "+")]),
          ("r", .ofList [("separator", ";")])] }
    let x (text : Option String) : Extension := { name := "x", kind := .text, text }
    let f := Feature.bare ⟨"g", "a", "1", "jar", none⟩
    let target := (f.addExtension (x (some "old"))).addExtension (x (some "older"))
    let first : Contribution := ⟨.prototype true, f, { x none with state := .required }⟩
    let rest := [some "a", none, some "b"].map fun text => ⟨.subsequent, f, x text⟩
    (∀ y ∈ first :: rest, c.RecordsAs "r" y.extension) ∧
    (∀ y ∈ first :: rest, y.extension.name = "x") ∧
    first.phase.isInitial = true ∧ (∀ y ∈ rest, y.phase.isInitial = false) ∧
    (∀ y ∈ first :: rest, y.extension.kind = .text) ∧
    ∃ e, (c.mergeAll target (first :: rest)).named "x" = [e] ∧
      e = { first.extension with text := e.text } ∧ e.text.getD "" = "a;;b" := by
  intro other recorder c x f target first rest
  have hrecords : ∀ y ∈ first :: rest, c.RecordsAs "r" y.extension := by
    have hx : ∀ e : Extension, e.name = "x" → c.RecordsAs "r" e := by
      intro e he
      refine ⟨[("other", other)], [("s", recorder)], 1, "recorder", ["x"], .shared, rfl, ?_, ?_⟩
      · simp [other, Handler.recorder, he]
      · simp [he]
    simp [first, rest, x, hx]
  have hname : ∀ y ∈ first :: rest, y.extension.name = "x" := by simp [first, rest, x]
  have hrest : ∀ y ∈ rest, y.phase.isInitial = false := by decide
  have htexts : ∀ y ∈ first :: rest, y.extension.kind = .text := by simp [first, rest, x]
  obtain ⟨e, hnamed, hothers, htext⟩ :=
    (mergeAll_joins target hrecords hname rfl hrest).2.1 htexts
  exact ⟨hrecords, hname, rfl, hrest, htexts, e, hnamed, hothers, htext.trans (by decide)⟩

end MergeSource

end FeatureMerge
