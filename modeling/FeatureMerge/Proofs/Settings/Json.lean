import FeatureMerge.Proofs.Json.Decoding
import FeatureMerge.Proofs.Settings.Fields
import FeatureMerge.Settings.Json

/-!
# Settings written as JSON and read back

Unlike in TOML the entries of a map keep their order, so reading gives back the very settings
that were written (`ofJson_toJson_eq_ok`).
-/

namespace FeatureMerge

open Json (Document Outline Value readRecord readRecord_member readRecord_some_of_ok)

/-- A policy is read from its name. -/
theorem optional_readText_name {α : Type} {read : String → Except BuildError α}
    {name : α → String} (h : ∀ a, read (name a) = .ok a) (a : α) :
    Outline.optional (readText read) (Value.string (name a)).outline = .ok (some a) := by
  have hread : readText read (Value.string (name a)).outline = .ok a := by
    rw [Value.outline, readText_string, h]
    rfl
  show some <$> readText read (Value.string (name a)).outline = .ok (some a)
  rw [hread]
  rfl

theorem MergeAlgorithm.optional_decode_name (m : MergeAlgorithm) :
    Outline.optional decode (Value.string m.name).outline = .ok (some m) :=
  optional_readText_name ofText_name m

theorem Propagation.optional_decode_name (p : Propagation) :
    Outline.optional decode (Value.string p.name).outline = .ok (some p) :=
  optional_readText_name ofText_name p

namespace Blocks

theorem foldlM_set (blocks : List (String × Properties)) (b : Blocks) :
    (blocks.map fun e => (e.1, e.2.value)).foldlM
        (fun b m => do return b.set m.1 (← Outline.properties m.2.outline)) b =
      (.ok (b.setMany blocks) : Json.Decoded Blocks) := by
  induction blocks generalizing b with
  | nil => rfl
  | cons e blocks ih =>
    rw [List.map_cons, List.foldlM_cons, Properties.properties_value]
    exact ih (b.set e.1 e.2)

theorem decode_value (b : Blocks) : decode b.value.outline = .ok b := by
  have hself : Blocks.empty.setMany b.toList = b := ext (toList_ofList b.ascending)
  rw [value, Value.outline, decode, Value.fold_membersOutline]
  exact (foldlM_set b.toList .empty).trans (congrArg Except.ok hself)

theorem hasNoNumber_value (b : Blocks) : b.value.HasNoNumber := by
  show Value.MembersHaveNoNumber _
  rw [Value.membersHaveNoNumber_iff]
  intro m hm
  obtain ⟨e, -, rfl⟩ := List.mem_map.1 hm
  exact Entries.hasNoNumber_value e.2.toList

end Blocks

namespace Settings

/-- Reads members into the fields. -/
def readFields (p : Fields) (members : List (Option (String × Value))) : Json.Decoded Settings :=
  readRecord Fields.add (fun p => .ok p.finish) p members

section

variable (m : Option (Option MergeAlgorithm)) (p : Option (Option Propagation))
  (vs fs : Properties) (bs : Blocks)

theorem read_handlers (ovs ofs : Option Properties) :
    readFields ⟨m, p, ovs, ofs, none⟩ [member "handlers" bs.isEmpty bs.value] =
      .ok ⟨m.getD none, p.getD none, ovs.getD .empty, ofs.getD .empty, bs⟩ := by
  refine readRecord_member (fun h => ?_) ?_
  · rw [Blocks.eq_empty_of_isEmpty h]
    rfl
  · rw [Fields.add, Outline.once, if_neg (by nofun), bs.decode_value]
    rfl

theorem read_frameworkProperties (ovs : Option Properties) :
    readFields ⟨m, p, ovs, none, none⟩
        [member "framework-properties" fs.isEmpty fs.value,
          member "handlers" bs.isEmpty bs.value] =
      .ok ⟨m.getD none, p.getD none, ovs.getD .empty, fs, bs⟩ := by
  refine readRecord_member (fun h => ?_) ?_
  · rw [Properties.eq_empty_of_isEmpty h]
    exact read_handlers m p bs ovs none
  · rw [Fields.add, Outline.once, if_neg (by nofun), fs.properties_value]
    exact read_handlers m p bs ovs (some fs)

theorem read_variables :
    readFields ⟨m, p, none, none, none⟩
        [member "variables" vs.isEmpty vs.value,
          member "framework-properties" fs.isEmpty fs.value,
          member "handlers" bs.isEmpty bs.value] =
      .ok ⟨m.getD none, p.getD none, vs, fs, bs⟩ := by
  refine readRecord_member (fun h => ?_) ?_
  · rw [Properties.eq_empty_of_isEmpty h]
    exact read_frameworkProperties m p fs bs none
  · rw [Fields.add, Outline.once, if_neg (by nofun), vs.properties_value]
    exact read_frameworkProperties m p fs bs (some vs)

theorem read_propagation (p : Option Propagation) :
    readFields ⟨m, none, none, none, none⟩
        [p.map fun q => ("configuration-propagation", .string q.name),
          member "variables" vs.isEmpty vs.value,
          member "framework-properties" fs.isEmpty fs.value,
          member "handlers" bs.isEmpty bs.value] =
      .ok ⟨m.getD none, p, vs, fs, bs⟩ := by
  cases p with
  | none => exact read_variables m none vs fs bs
  | some q =>
    have hadd : Fields.add ⟨m, none, none, none, none⟩ "configuration-propagation"
        (Value.string q.name).outline = .ok ⟨m, some (some q), none, none, none⟩ := by
      rw [Fields.add, Outline.once, if_neg (by nofun), Propagation.optional_decode_name]
      rfl
    exact (readRecord_some_of_ok hadd _).trans (read_variables m (some (some q)) vs fs bs)

end

theorem decode_value (s : Settings) : decode s.value.outline = .ok s := by
  obtain ⟨m, p, vs, fs, bs⟩ := s
  rw [value, Value.objectOf, Value.outline]
  show readFields {} _ = _
  cases m with
  | none => exact read_propagation none vs fs bs p
  | some a =>
    have hadd : Fields.add {} "merge-algorithm" (Value.string a.name).outline =
        .ok ⟨some (some a), none, none, none, none⟩ := by
      rw [Fields.add, Outline.once, if_neg (by nofun), MergeAlgorithm.optional_decode_name]
      rfl
    exact (readRecord_some_of_ok hadd _).trans (read_propagation (some (some a)) vs fs bs p)

theorem hasNoNumber_value (s : Settings) : s.value.HasNoNumber := by
  refine Value.hasNoNumber_objectOf ?_
  simp only [List.forall_mem_cons, List.not_mem_nil, false_implies, implies_true, and_true]
  refine ⟨?_, ?_, ?_, ?_, ?_⟩
  · intro m hm
    obtain ⟨a, -, rfl⟩ := Option.map_eq_some_iff.1 hm
    trivial
  · intro m hm
    obtain ⟨q, -, rfl⟩ := Option.map_eq_some_iff.1 hm
    trivial
  · exact forall_mem_member (Entries.hasNoNumber_value s.variables.toList)
  · exact forall_mem_member (Entries.hasNoNumber_value s.frameworkProperties.toList)
  · exact forall_mem_member s.handlers.hasNoNumber_value

theorem ofJson_toJson_eq_ok (s : Settings) : ofJson s.toJson = .ok s := by
  unfold ofJson toJson
  rw [Document.decode_write s.hasNoNumber_value, s.decode_value]

end Settings

end FeatureMerge
