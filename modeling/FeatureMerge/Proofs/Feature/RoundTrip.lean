import FeatureMerge.Proofs.Artifact.RoundTrip
import FeatureMerge.Proofs.Json.Decoding

/-!
# Features written and read back

A feature is written as JSON with its ids in the colon form. `reread` is the feature with
each id replaced by what comes back of that form, and `ofJson_toJson` says that reading
gives just this: whatever is not an id is kept, absent and empty parts and the order of
the maps included.
-/

namespace FeatureMerge

open Json (Decoded Document Outline Value readRecord readRecord_member readRecord_nil
  readRecord_some readRecord_some_of_ok)

namespace ArtifactId

/-- What comes back of an id that is written in the colon form. -/
def reread (id : ArtifactId) : Decoded ArtifactId :=
  (ofText id.toColons).mapError fun e => .data (.refused e.message)

theorem decode_value (id : ArtifactId) : decode id.value.outline = id.reread := by
  rw [value, Value.outline]
  exact readText_string ofText id.toColons

theorem decode_values (ids : List ArtifactId) :
    Outline.list decode (values ids).outline = ids.mapM reread := by
  show (Value.itemsOutline (ids.map value)).decode decode = _
  rw [Value.decode_itemsOutline]
  simp only [decode_value]

theorem hasNoNumber_values (ids : List ArtifactId) : (values ids).HasNoNumber := by
  show Value.HaveNoNumber (ids.map value)
  rw [Value.haveNoNumber_iff]
  intro v hv
  obtain ⟨id, -, rfl⟩ := List.mem_map.1 hv
  trivial

theorem reread_eq_ok_iff {id id' : ArtifactId} :
    id.reread = .ok id' ↔ ofText id.toColons = .ok id' :=
  mapError_eq_ok_iff

end ArtifactId

namespace Extension

def reread (e : Extension) : Decoded Extension := do
  return { e with artifacts := ← e.artifacts.mapM ArtifactId.reread }

theorem kind_decode (k : ExtensionKind) :
    ExtensionKind.decode (Value.string k.name).outline = .ok k := by
  cases k <;> rfl

theorem state_decode (s : ExtensionState) :
    ExtensionState.decode (Value.string s.name).outline = .ok s := by
  cases s <;> rfl

theorem read_artifacts (name : String) (kind : ExtensionKind) (state : ExtensionState)
    (text : Option (Option String)) (ids : List ArtifactId) :
    readRecord Fields.add Fields.finish ⟨some name, some kind, some state, text, none⟩
        [member "artifacts" ids.isEmpty (ArtifactId.values ids)] =
      (do return ⟨name, kind, state, text.getD none, ← ids.mapM ArtifactId.reread⟩) := by
  refine readRecord_member (fun h => ?_) ?_
  · rw [List.isEmpty_iff.1 h]
    rfl
  · simp only [readRecord_nil, Fields.add, Outline.once, ArtifactId.decode_values]
    cases ids.mapM ArtifactId.reread <;> rfl

theorem read_text (name : String) (kind : ExtensionKind) (state : ExtensionState)
    (text : Option String) (ids : List ArtifactId) :
    readRecord Fields.add Fields.finish ⟨some name, some kind, some state, none, none⟩
        [text.map fun s => ("text", .string s),
          member "artifacts" ids.isEmpty (ArtifactId.values ids)] =
      (do return ⟨name, kind, state, text, ← ids.mapM ArtifactId.reread⟩) := by
  cases text with
  | none => exact read_artifacts name kind state none ids
  | some s => exact read_artifacts name kind state (some (some s)) ids

theorem decode_objectOf (members : List (Option (String × Value))) :
    decode (Value.objectOf members).outline = readRecord Fields.add Fields.finish {} members := by
  rw [Value.objectOf, Value.outline]
  rfl

theorem decode_value (e : Extension) : decode e.value.outline = e.reread := by
  obtain ⟨name, kind, state, text, ids⟩ := e
  have hname : Fields.add {} "name" (Value.string name).outline = .ok { name := some name } := by
    rw [Fields.add, Value.outline]
    rfl
  have hkind : Fields.add { name := some name } "type" (Value.string kind.name).outline =
      .ok { name := some name, kind := some kind } := by
    rw [Fields.add, Outline.once, if_neg (by nofun), kind_decode]
    rfl
  have hstate : Fields.add { name := some name, kind := some kind } "state"
      (Value.string state.name).outline =
        .ok { name := some name, kind := some kind, state := some state } := by
    rw [Fields.add, Outline.once, if_neg (by nofun), state_decode]
    rfl
  rw [value, decode_objectOf, readRecord_some_of_ok hname, readRecord_some_of_ok hkind,
    readRecord_some_of_ok hstate]
  exact read_text name kind state text ids

theorem reread_eq_ok_self_iff {e : Extension} :
    e.reread = .ok e ↔ ∀ id ∈ e.artifacts, id.reread = .ok id := by
  rw [← mapM_eq_ok_self_iff]
  obtain ⟨name, kind, state, text, ids⟩ := e
  unfold reread
  simp only [bind_eq_ok_iff]
  constructor
  · rintro ⟨_, hids, ⟨⟩⟩
    exact hids
  · exact fun hids => ⟨ids, hids, rfl⟩

theorem hasNoNumber_value (e : Extension) : e.value.HasNoNumber := by
  refine Value.hasNoNumber_objectOf ?_
  simp only [List.forall_mem_cons, List.not_mem_nil, false_implies, implies_true, and_true]
  refine ⟨?_, ?_, ?_, ?_, ?_⟩
  · rintro _ ⟨⟩
    trivial
  · rintro _ ⟨⟩
    trivial
  · rintro _ ⟨⟩
    trivial
  · intro m hm
    obtain ⟨s, -, rfl⟩ := Option.map_eq_some_iff.1 hm
    trivial
  · exact forall_mem_member (ArtifactId.hasNoNumber_values e.artifacts)

end Extension

namespace Feature

/-- What comes back of a feature that is written: only its ids may change. -/
def reread (f : Feature) : Decoded Feature := do
  let id ← f.id.reread
  let prototype ← f.prototype.mapM ArtifactId.reread
  let artifacts ← f.artifacts.mapM ArtifactId.reread
  let extensions ← f.extensions.mapM Extension.reread
  return { f with id, prototype, artifacts, extensions }

section

variable (id : ArtifactId) (prototype : Option (Option ArtifactId)) (ids : List ArtifactId)
  (vs fs : Properties) (es : List Extension)

theorem read_extensions (oids : Option (List ArtifactId)) (ovs ofs : Option Properties) :
    readRecord Fields.add Fields.finish ⟨some id, prototype, oids, ovs, ofs, none⟩
        [member "extensions" es.isEmpty (.array (es.map Extension.value))] =
      (do return ⟨id, prototype.getD none, oids.getD [], ovs.getD .empty, ofs.getD .empty,
        ← es.mapM Extension.reread⟩) := by
  have hlist : Outline.list Extension.decode (Value.array (es.map Extension.value)).outline =
      es.mapM Extension.reread := by
    rw [Value.outline, Outline.list, Value.decode_itemsOutline]
    simp only [Extension.decode_value]
  refine readRecord_member (fun h => ?_) ?_
  · rw [List.isEmpty_iff.1 h]
    rfl
  · simp only [readRecord_nil, Fields.add, Outline.once, hlist]
    cases es.mapM Extension.reread <;> rfl

theorem read_frameworkProperties (oids : Option (List ArtifactId)) (ovs : Option Properties) :
    readRecord Fields.add Fields.finish ⟨some id, prototype, oids, ovs, none, none⟩
        [member "framework-properties" fs.isEmpty fs.value,
          member "extensions" es.isEmpty (.array (es.map Extension.value))] =
      (do return ⟨id, prototype.getD none, oids.getD [], ovs.getD .empty, fs,
        ← es.mapM Extension.reread⟩) := by
  refine readRecord_member (fun h => ?_) ?_
  · rw [Properties.eq_empty_of_isEmpty h]
    exact read_extensions id prototype es oids ovs none
  · rw [Fields.add, Outline.once, if_neg (by nofun), fs.properties_value]
    exact read_extensions id prototype es oids ovs (some fs)

theorem read_variables (oids : Option (List ArtifactId)) :
    readRecord Fields.add Fields.finish ⟨some id, prototype, oids, none, none, none⟩
        [member "variables" vs.isEmpty vs.value,
          member "framework-properties" fs.isEmpty fs.value,
          member "extensions" es.isEmpty (.array (es.map Extension.value))] =
      (do return ⟨id, prototype.getD none, oids.getD [], vs, fs,
        ← es.mapM Extension.reread⟩) := by
  refine readRecord_member (fun h => ?_) ?_
  · rw [Properties.eq_empty_of_isEmpty h]
    exact read_frameworkProperties id prototype fs es oids none
  · rw [Fields.add, Outline.once, if_neg (by nofun), vs.properties_value]
    exact read_frameworkProperties id prototype fs es oids (some vs)

theorem read_artifacts :
    readRecord Fields.add Fields.finish ⟨some id, prototype, none, none, none, none⟩
        [member "artifacts" ids.isEmpty (ArtifactId.values ids),
          member "variables" vs.isEmpty vs.value,
          member "framework-properties" fs.isEmpty fs.value,
          member "extensions" es.isEmpty (.array (es.map Extension.value))] =
      (do
        let ids ← ids.mapM ArtifactId.reread
        return ⟨id, prototype.getD none, ids, vs, fs, ← es.mapM Extension.reread⟩) := by
  refine readRecord_member (fun h => ?_) ?_
  · rw [List.isEmpty_iff.1 h]
    exact read_variables id prototype vs fs es none
  · rw [Fields.add, Outline.once, if_neg (by nofun), ArtifactId.decode_values]
    cases ids.mapM ArtifactId.reread with
    | error e => rfl
    | ok ids' => exact read_variables id prototype vs fs es (some ids')

theorem read_prototype (prototype : Option ArtifactId) :
    readRecord Fields.add Fields.finish { id := some id }
        [prototype.map fun i => ("prototype", i.value),
          member "artifacts" ids.isEmpty (ArtifactId.values ids),
          member "variables" vs.isEmpty vs.value,
          member "framework-properties" fs.isEmpty fs.value,
          member "extensions" es.isEmpty (.array (es.map Extension.value))] =
      (do
        let prototype ← prototype.mapM ArtifactId.reread
        let ids ← ids.mapM ArtifactId.reread
        return ⟨id, prototype, ids, vs, fs, ← es.mapM Extension.reread⟩) := by
  cases prototype with
  | none => exact read_artifacts id none ids vs fs es
  | some i =>
    have hi : Outline.optional ArtifactId.decode i.value.outline = some <$> i.reread := by
      rw [← ArtifactId.decode_value]
      rfl
    rw [Option.map_some, Option.mapM_some, readRecord_some, Fields.add, Outline.once,
      if_neg (by nofun), hi]
    cases i.reread with
    | error e => rfl
    | ok i' => exact read_artifacts id (some (some i')) ids vs fs es

end

theorem decode_objectOf (members : List (Option (String × Value))) :
    decode (Value.objectOf members).outline = readRecord Fields.add Fields.finish {} members := by
  rw [Value.objectOf, Value.outline]
  rfl

theorem decode_value (f : Feature) : decode f.value.outline = f.reread := by
  obtain ⟨id, prototype, ids, vs, fs, es⟩ := f
  rw [value, decode_objectOf, readRecord_some, Fields.add, Outline.once, if_neg (by nofun),
    ArtifactId.decode_value]
  unfold reread
  cases id.reread with
  | error e => rfl
  | ok id' => exact read_prototype id' ids vs fs es prototype

theorem hasNoNumber_value (f : Feature) : f.value.HasNoNumber := by
  refine Value.hasNoNumber_objectOf ?_
  simp only [List.forall_mem_cons, List.not_mem_nil, false_implies, implies_true, and_true]
  refine ⟨?_, ?_, ?_, ?_, ?_, ?_⟩
  · rintro _ ⟨⟩
    trivial
  · intro m hm
    obtain ⟨i, -, rfl⟩ := Option.map_eq_some_iff.1 hm
    trivial
  · exact forall_mem_member (ArtifactId.hasNoNumber_values f.artifacts)
  · exact forall_mem_member (Entries.hasNoNumber_value f.variables.toList)
  · exact forall_mem_member (Entries.hasNoNumber_value f.frameworkProperties.toList)
  · refine forall_mem_member (Value.haveNoNumber_iff.2 fun v hv => ?_)
    obtain ⟨e, -, rfl⟩ := List.mem_map.1 hv
    exact e.hasNoNumber_value

/-! ## Round trip -/

/-- The ids that occur in a feature. -/
def ids (f : Feature) : List ArtifactId :=
  f.id :: (f.prototype.toList ++ f.artifacts ++ f.extensions.flatMap (·.artifacts))

theorem forall_mem_ids {P : ArtifactId → Prop} (f : Feature) : (∀ id ∈ f.ids, P id) ↔
    P f.id ∧ (∀ id ∈ f.prototype, P id) ∧ (∀ id ∈ f.artifacts, P id) ∧
      ∀ e ∈ f.extensions, ∀ id ∈ e.artifacts, P id := by
  simp only [ids, List.forall_mem_cons, List.forall_mem_append, Option.mem_toList, Option.mem_def,
    List.forall_mem_flatMap, and_assoc]

theorem reread_eq_ok_self_iff {f : Feature} :
    f.reread = .ok f ↔ ∀ id ∈ f.ids, id.reread = .ok id := by
  rw [forall_mem_ids]
  obtain ⟨id, prototype, ids, vs, fs, es⟩ := f
  unfold reread
  simp only [bind_eq_ok_iff, ← Extension.reread_eq_ok_self_iff]
  constructor
  · rintro ⟨_, hid, _, hp, _, hids, _, hes, ⟨⟩⟩
    exact ⟨hid, optionMapM_eq_ok_self_iff.1 hp, mapM_eq_ok_self_iff.1 hids,
      mapM_eq_ok_self_iff.1 hes⟩
  · rintro ⟨hid, hp, hids, hes⟩
    exact ⟨id, hid, prototype, optionMapM_eq_ok_self_iff.2 hp, ids,
      mapM_eq_ok_self_iff.2 hids, es, mapM_eq_ok_self_iff.2 hes, rfl⟩

theorem ofJson_toJson (f : Feature) :
    ofJson f.toJson = f.reread ∧
      (ofJson f.toJson = .ok f ↔ ∀ id ∈ f.ids, ArtifactId.ofText id.toColons = .ok id) := by
  have h : ofJson f.toJson = f.reread := by
    unfold ofJson toJson
    rw [Document.decode_write f.hasNoNumber_value, decode_value]
  refine ⟨h, ?_⟩
  rw [h, reread_eq_ok_self_iff]
  simp only [ArtifactId.reread_eq_ok_iff]

end Feature
end FeatureMerge
