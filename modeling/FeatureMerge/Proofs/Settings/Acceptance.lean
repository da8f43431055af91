import Mathlib.Data.Set.List
import FeatureMerge.Proofs.Settings.Fields
import FeatureMerge.Proofs.Toml.Ordered

/-!
# Documents that are settings

Which documents are accepted, and what the settings are that are read from them
(`ofToml_accepts`). Tables of strings are wanted in several places, and a moment passes for one.
Apart from that a document is accepted just if each value is what its place asks for.
-/

namespace FeatureMerge

theorem exists_forall₂_iff {α β : Type} {R : α → β → Prop} {as : List α} :
    (∃ bs, List.Forall₂ R as bs) ↔ ∀ a ∈ as, ∃ b, R a b := by
  induction as with
  | nil => exact ⟨fun _ => nofun, fun _ => ⟨[], .nil⟩⟩
  | cons a as ih =>
    rw [List.forall_mem_cons, ← ih]
    constructor
    · rintro ⟨_, _ | ⟨hb, hbs⟩⟩
      exact ⟨⟨_, hb⟩, ⟨_, hbs⟩⟩
    · rintro ⟨⟨b, hb⟩, ⟨bs, hbs⟩⟩
      exact ⟨b :: bs, .cons hb hbs⟩

theorem forall₂_congr {α β : Type} {R S : α → β → Prop} {as : List α} {bs : List β}
    (h : ∀ a ∈ as, ∀ b, R a b ↔ S a b) : List.Forall₂ R as bs ↔ List.Forall₂ S as bs := by
  induction as generalizing bs with
  | nil => rw [List.forall₂_nil_left_iff, List.forall₂_nil_left_iff]
  | cons a as ih =>
    obtain ⟨ha, has⟩ := List.forall_mem_cons.1 h
    simp only [List.forall₂_cons_left_iff, ha, ih has]

namespace Toml.Value

/-! ## What values say -/

/-- A string that is the name up to ASCII case. -/
def Names (v : Value) (name : String) : Prop := ∃ s, v = .string s ∧ s.toLower = name

/-- The policy of that name is set. -/
def SetsPolicy {α : Type} (nameOf : α → String) (v : Value) (o : Option α) : Prop :=
  ∃ a, o = some a ∧ v.Names (nameOf a)

/-- A table all of whose values are strings. -/
def IsTexts (v : Value) : Prop := ∃ table, v = .table table ∧ ∀ e ∈ table, ∃ s, e.2 = .string s

/-- A table of strings, or a moment. -/
def PassesForTexts (v : Value) : Prop := v.IsTexts ∨ ∃ m, v = .moment m

/-- The map has the entries of the table, in the same order. -/
def HoldsTexts (v : Value) (m : Properties) : Prop :=
  v.entries? = some (m.toList.map (Prod.map id string))

/-- The blocks have the entries of the tables in the table. -/
def HoldsBlocks (v : Value) (b : Blocks) : Prop :=
  ∃ table, v.entries? = some table ∧
    List.Forall₂ (fun e e' => e.1 = e'.1 ∧ e.2.HoldsTexts e'.2) table b.toList

variable {v : Value}

section

variable {α : Type} {ofText : String → Except BuildError α} {nameOf : α → String}

theorem somePolicy_eq_ok_iff (hread : ∀ s a, ofText s = .ok a ↔ s.toLower = nameOf a)
    {o : Option α} : Settings.somePolicy ofText v = .ok o ↔ v.SetsPolicy nameOf o := by
  rw [Settings.somePolicy, map_eq_pure_bind, bind_eq_ok_iff, policy]
  simp only [bind_eq_ok_iff, mapError_eq_ok_iff, text_eq_ok_iff, hread]
  constructor
  · rintro ⟨a, hname, ⟨⟩⟩
    exact ⟨a, rfl, hname⟩
  · rintro ⟨a, rfl, hname⟩
    exact ⟨a, hname, rfl⟩

theorem exists_somePolicy_eq_ok_iff (hread : ∀ s a, ofText s = .ok a ↔ s.toLower = nameOf a) :
    (∃ o, Settings.somePolicy ofText v = .ok o) ↔ ∃ a, v.Names (nameOf a) := by
  simp only [somePolicy_eq_ok_iff hread, SetsPolicy]
  constructor
  · rintro ⟨o, a, -, hname⟩
    exact ⟨a, hname⟩
  · rintro ⟨a, hname⟩
    exact ⟨some a, a, rfl, hname⟩

end

/-! ## Tables of strings -/

theorem properties_eq_ok_iff_holdsTexts (hv : v.IsOrdered) {m : Properties} :
    v.properties = .ok m ↔ v.HoldsTexts m := by
  cases hentries : v.entries? with
  | none => simp [properties, HoldsTexts, hentries]
  | some table =>
    rw [properties_eq_ok_iff hentries (hv.entries hentries).1.nodup_keys, HoldsTexts, hentries,
      Option.some_inj]

theorem exists_properties_eq_ok_iff (hv : v.IsOrdered) :
    (∃ m, v.properties = .ok m) ↔ v.PassesForTexts := by
  constructor
  · rintro ⟨m, hm⟩
    have hentries : v.entries? = some _ := (properties_eq_ok_iff_holdsTexts hv).1 hm
    cases v with
    | table table =>
      cases hentries
      refine .inl ⟨_, rfl, fun e he => ?_⟩
      obtain ⟨e', -, rfl⟩ := List.mem_map.1 he
      exact ⟨e'.2, rfl⟩
    | moment m => exact .inr ⟨m, rfl⟩
    | _ => cases hentries
  · rintro (⟨table, rfl, htexts⟩ | ⟨m, rfl⟩)
    · have hrange : table ∈ Set.range (List.map (Prod.map id string)) := by
        rw [Set.range_list_map]
        intro e he
        obtain ⟨s, hs⟩ := htexts e he
        exact ⟨(e.1, s), Prod.ext rfl hs.symm⟩
      obtain ⟨entries, rfl⟩ := hrange
      exact ⟨_, foldlM_addText_eq_ok_iff.2 ⟨entries, rfl, rfl⟩⟩
    · exact ⟨_, rfl⟩

/-! ## Tables of such tables -/

theorem blocks_eq_ok_iff_holdsBlocks (hv : v.IsOrdered) {b : Blocks} :
    v.blocks = .ok b ↔ v.HoldsBlocks b := by
  cases hentries : v.entries? with
  | none => simp [blocks, HoldsBlocks, hentries]
  | some table =>
    obtain ⟨hasc, hvalues⟩ := hv.entries hentries
    have hdescribes : ∀ e ∈ table, ∀ e' : String × Properties,
        DescribesBlock e e' ↔ e.1 = e'.1 ∧ e.2.HoldsTexts e'.2 := fun e he _ =>
      and_congr_right fun _ => properties_eq_ok_iff_holdsTexts (hvalues e he)
    rw [blocks_eq_ok_iff hentries hasc, forall₂_congr hdescribes, HoldsBlocks, hentries]
    simp

theorem exists_describesBlock_iff {e : String × Value} (he : e.2.IsOrdered) :
    (∃ e', DescribesBlock e e') ↔ e.2.PassesForTexts := by
  rw [← exists_properties_eq_ok_iff he]
  constructor
  · rintro ⟨e', -, hm⟩
    exact ⟨e'.2, hm⟩
  · rintro ⟨m, hm⟩
    exact ⟨(e.1, m), rfl, hm⟩

theorem exists_blocks_eq_ok_iff (hv : v.IsOrdered) :
    (∃ b, v.blocks = .ok b) ↔
      ∃ table, v = .table table ∧ ∀ e ∈ table, e.2.PassesForTexts := by
  constructor
  · rintro ⟨b, hb⟩
    cases v with
    | table table =>
      obtain ⟨hasc, hvalues⟩ := hv.entries rfl
      have hall := exists_forall₂_iff.1 ⟨_, (blocks_eq_ok_iff rfl hasc).1 hb⟩
      exact ⟨table, rfl, fun e he => (exists_describesBlock_iff (hvalues e he)).1 (hall e he)⟩
    | _ => cases hb
  · rintro ⟨table, rfl, htexts⟩
    obtain ⟨-, hvalues⟩ := hv.entries rfl
    obtain ⟨blocks, hblocks⟩ := exists_forall₂_iff.2 fun e he =>
      (exists_describesBlock_iff (hvalues e he)).2 (htexts e he)
    exact ⟨_, foldlM_addBlock_eq_ok_iff.2 ⟨blocks, hblocks, rfl⟩⟩

end Toml.Value

namespace Settings

open Toml (Table Value)

/-! ## What documents say -/

/-- The table describes settings, if `texts` says what passes for a table of strings. -/
structure IsWellFormed (texts : Value → Prop) (table : Table) : Prop where
  known : ∀ name ∈ table.map Prod.fst, name ∈ fieldNames
  mergeAlgorithm : ∀ v, table.lookup "merge-algorithm" = some v →
    ∃ m : MergeAlgorithm, v.Names m.name
  propagation : ∀ v, table.lookup "configuration-propagation" = some v →
    ∃ p : Propagation, v.Names p.name
  «variables» : ∀ v, table.lookup "variables" = some v → texts v
  frameworkProperties : ∀ v, table.lookup "framework-properties" = some v → texts v
  handlers : ∀ v, table.lookup "handlers" = some v →
    ∃ blocks, v = .table blocks ∧ ∀ e ∈ blocks, texts e.2

/-- What a field of the table means, which is the default if there is none. -/
def FieldMeans {α : Type} (table : Table) (name : String) (means : Value → α → Prop)
    (default a : α) : Prop :=
  match table.lookup name with
  | none => a = default
  | some v => means v a

/-- The settings are what the table says. -/
@[mk_iff]
structure States (table : Table) (s : Settings) : Prop where
  mergeAlgorithm : FieldMeans table "merge-algorithm" (Value.SetsPolicy MergeAlgorithm.name) none
    s.mergeAlgorithm
  propagation : FieldMeans table "configuration-propagation" (Value.SetsPolicy Propagation.name)
    none s.propagation
  «variables» : FieldMeans table "variables" Value.HoldsTexts .empty s.variables
  frameworkProperties : FieldMeans table "framework-properties" Value.HoldsTexts .empty
    s.frameworkProperties
  handlers : FieldMeans table "handlers" Value.HoldsBlocks .empty s.handlers

section

variable {α : Type} {table : Table} {name : String} {decode : Value → Except Misfit α}

theorem field_eq_ok_iff {means : Value → α → Prop}
    (h : ∀ v, table.lookup name = some v → ∀ a, decode v = .ok a ↔ means v a) {before after : α} :
    field table name decode before = .ok after ↔ FieldMeans table name means before after := by
  unfold field FieldMeans
  cases hv : table.lookup name with
  | none => simp [eq_comm]
  | some v => exact h v hv after

theorem exists_field_eq_ok_iff {P : Value → Prop}
    (h : ∀ v, table.lookup name = some v → ((∃ a, decode v = .ok a) ↔ P v)) {before : α} :
    (∃ a, field table name decode before = .ok a) ↔ ∀ v, table.lookup name = some v → P v := by
  unfold field
  cases hv : table.lookup name with
  | none => simp
  | some v => simp [h v hv]

end

section

variable {table : Table} {name : String}

theorem field_policy_eq_ok_iff {α : Type} {ofText : String → Except BuildError α}
    {nameOf : α → String} (hread : ∀ s a, ofText s = .ok a ↔ s.toLower = nameOf a)
    {o : Option α} :
    field table name (somePolicy ofText) none = .ok o ↔
      FieldMeans table name (Value.SetsPolicy nameOf) none o :=
  field_eq_ok_iff fun _ _ _ => Value.somePolicy_eq_ok_iff hread

theorem exists_field_policy_eq_ok_iff {α : Type} {ofText : String → Except BuildError α}
    {nameOf : α → String} (hread : ∀ s a, ofText s = .ok a ↔ s.toLower = nameOf a) :
    (∃ o, field table name (somePolicy ofText) none = .ok o) ↔
      ∀ v, table.lookup name = some v → ∃ a, v.Names (nameOf a) :=
  exists_field_eq_ok_iff fun _ _ => Value.exists_somePolicy_eq_ok_iff hread

variable (h : (Value.table table).IsOrdered)
include h

theorem field_properties_eq_ok_iff {m : Properties} :
    field table name Value.properties .empty = .ok m ↔
      FieldMeans table name Value.HoldsTexts .empty m :=
  field_eq_ok_iff fun _ hv _ => Value.properties_eq_ok_iff_holdsTexts (h.lookup hv)

theorem exists_field_properties_eq_ok_iff :
    (∃ m, field table name Value.properties .empty = .ok m) ↔
      ∀ v, table.lookup name = some v → v.PassesForTexts :=
  exists_field_eq_ok_iff fun _ hv => Value.exists_properties_eq_ok_iff (h.lookup hv)

theorem field_blocks_eq_ok_iff {b : Blocks} :
    field table name Value.blocks .empty = .ok b ↔
      FieldMeans table name Value.HoldsBlocks .empty b :=
  field_eq_ok_iff fun _ hv _ => Value.blocks_eq_ok_iff_holdsBlocks (h.lookup hv)

theorem exists_field_blocks_eq_ok_iff :
    (∃ b, field table name Value.blocks .empty = .ok b) ↔
      ∀ v, table.lookup name = some v →
        ∃ blocks, v = .table blocks ∧ ∀ e ∈ blocks, e.2.PassesForTexts :=
  exists_field_eq_ok_iff fun _ hv => Value.exists_blocks_eq_ok_iff (h.lookup hv)

/-! ## Whole tables -/

theorem makes_iff_states {s : Settings} :
    Makes table empty s ↔ (∀ name ∈ table.map Prod.fst, name ∈ fieldNames) ∧ States table s := by
  rw [makes_iff, states_iff]
  exact and_congr_right fun _ =>
    and_congr (field_policy_eq_ok_iff fun _ _ => MergeAlgorithm.ofText_eq_ok_iff) <|
    and_congr (field_policy_eq_ok_iff fun _ _ => Propagation.ofText_eq_ok_iff) <|
    and_congr (field_properties_eq_ok_iff h) <|
    and_congr (field_properties_eq_ok_iff h) (field_blocks_eq_ok_iff h)

theorem exists_makes_iff :
    (∃ s, Makes table empty s) ↔ IsWellFormed Value.PassesForTexts table := by
  constructor
  · rintro ⟨s, hknown, h₁, h₂, h₃, h₄, h₅⟩
    refine ⟨hknown, ?_, ?_, ?_, ?_, ?_⟩
    · exact (exists_field_policy_eq_ok_iff fun _ _ => MergeAlgorithm.ofText_eq_ok_iff).1 ⟨_, h₁⟩
    · exact (exists_field_policy_eq_ok_iff fun _ _ => Propagation.ofText_eq_ok_iff).1 ⟨_, h₂⟩
    · exact (exists_field_properties_eq_ok_iff h).1 ⟨_, h₃⟩
    · exact (exists_field_properties_eq_ok_iff h).1 ⟨_, h₄⟩
    · exact (exists_field_blocks_eq_ok_iff h).1 ⟨_, h₅⟩
  · rintro ⟨hknown, h₁, h₂, h₃, h₄, h₅⟩
    obtain ⟨m, h₁⟩ :=
      (exists_field_policy_eq_ok_iff fun _ _ => MergeAlgorithm.ofText_eq_ok_iff).2 h₁
    obtain ⟨p, h₂⟩ := (exists_field_policy_eq_ok_iff fun _ _ => Propagation.ofText_eq_ok_iff).2 h₂
    obtain ⟨vs, h₃⟩ := (exists_field_properties_eq_ok_iff h).2 h₃
    obtain ⟨fs, h₄⟩ := (exists_field_properties_eq_ok_iff h).2 h₄
    obtain ⟨bs, h₅⟩ := (exists_field_blocks_eq_ok_iff h).2 h₅
    exact ⟨⟨m, p, vs, fs, bs⟩, hknown, h₁, h₂, h₃, h₄, h₅⟩

end

/-! ## Documents -/

theorem ofToml_eq_ok_iff {text : String} {s : Settings} :
    ofToml text = .ok s ↔ ∃ table, Table.read text = some table ∧ Makes table empty s := by
  unfold ofToml
  cases hread : Table.read text with
  | none => simp
  | some table =>
    obtain ⟨hasc, -⟩ := (Toml.isOrdered_of_read hread).entries rfl
    simp [mapError_eq_ok_iff, ofTable_eq_ok_iff hasc.nodup_keys]

theorem exists_fault_of_ofToml {text : String} {error : BuildError}
    (h : ofToml text = .error error) : ∃ fault, error = .invalidSettings fault := by
  unfold ofToml at h
  split at h
  · cases h
    exact ⟨_, rfl⟩
  · rename_i table _
    cases hmisfit : ofTable table with
    | ok s =>
      rw [hmisfit] at h
      cases h
    | error misfit =>
      rw [hmisfit] at h
      cases h
      exact ⟨_, rfl⟩

/-- A document is accepted just if it is a table that is well-formed, where a moment passes for a
table of strings. The settings are what it says, and all others have the same kind of error. -/
theorem ofToml_accepts (text : String) :
    ((∃ s, ofToml text = .ok s) ↔
      ∃ table, Table.read text = some table ∧ IsWellFormed Value.PassesForTexts table) ∧
    (∀ s, ofToml text = .ok s → ∃ table, Table.read text = some table ∧ States table s) ∧
    ∀ error, ofToml text = .error error → ∃ fault, error = .invalidSettings fault := by
  refine ⟨?_, ?_, fun _ => exists_fault_of_ofToml⟩
  · simp only [ofToml_eq_ok_iff]
    rw [exists_comm]
    refine exists_congr fun table => ?_
    rw [exists_and_left]
    exact and_congr_right fun hread => exists_makes_iff (Toml.isOrdered_of_read hread)
  · intro s hs
    obtain ⟨table, hread, hmakes⟩ := ofToml_eq_ok_iff.1 hs
    exact ⟨table, hread, ((makes_iff_states (Toml.isOrdered_of_read hread)).1 hmakes).2⟩

theorem ofToml_accepts_upper :
    let text := "merge-algorithm = 'LATEST'\n[handlers.x]\na = '1'"
    let table : Table :=
      [("handlers", .table [("x", .table [("a", .string "1")])]),
        ("merge-algorithm", .string "LATEST")]
    Table.read text = some table ∧ IsWellFormed Value.PassesForTexts table ∧
      ∃ s, ofToml text = .ok s ∧ States table s := by
  intro text table
  have hread : Table.read text = some table := by
    simp only [text, Table.read, String.reduceToList]
    rfl
  have hlower : "LATEST".toLower = MergeAlgorithm.latest.name := by decide +kernel
  have hwell : IsWellFormed Value.PassesForTexts table := by
    constructor
    · decide
    · rintro _ ⟨⟩
      exact ⟨.latest, "LATEST", rfl, hlower⟩
    · rintro _ ⟨⟩
    · rintro _ ⟨⟩
    · rintro _ ⟨⟩
    · rintro _ ⟨⟩
      simp [Value.PassesForTexts, Value.IsTexts]
  obtain ⟨haccepts, hstates, -⟩ := ofToml_accepts text
  obtain ⟨s, hs⟩ := haccepts.2 ⟨table, hread, hwell⟩
  obtain ⟨_, hread', hs'⟩ := hstates s hs
  cases hread.symm.trans hread'
  exact ⟨hread, hwell, s, hs, hs'⟩

/-- A date is accepted for a table of strings, and its key is no key of the document. -/
theorem ofToml_accepts_date :
    let text := "variables = 1979-05-27"
    ofToml text = .ok { empty with
      «variables» := .ofList [("$__toml_private_datetime", "1979-05-27")] } ∧
    ¬ ((∃ s, ofToml text = .ok s) ↔
      ∃ table, Table.read text = some table ∧ IsWellFormed Value.IsTexts table) := by
  intro text
  have hread : Table.read text = some [("variables", .moment (.date ⟨1979, 5, 27⟩))] := by
    simp only [text, Table.read, String.reduceToList]
    rfl
  have hread' : ofToml text = .ok { empty with
      «variables» := .ofList [("$__toml_private_datetime", "1979-05-27")] } := by
    rw [ofToml, hread]
    rfl
  refine ⟨hread', fun h => ?_⟩
  obtain ⟨_, htable, hwell⟩ := h.1 ⟨_, hread'⟩
  cases hread.symm.trans htable
  obtain ⟨_, htexts, -⟩ := hwell.variables _ rfl
  cases htexts

end Settings

end FeatureMerge
