import Mathlib.Data.List.Forall2
import Mathlib.Tactic.MkIffOfInductiveProp
import FeatureMerge.Proofs.Except
import FeatureMerge.Proofs.Maps
import FeatureMerge.Settings.Toml

/-!
# Tables that are settings

Which tables are settings, and which settings they are: `ofTable_eq_ok_iff` says
it field by field. A field is read the same wherever it stands in the table. Maps
of texts and blocks hold what their tables hold.
-/

namespace FeatureMerge

/-! ## Names of policies -/

theorem toLower_eq_self {s : String} (h : s.toList.map Char.toLower = s.toList) :
    s.toLower = s :=
  String.toList_inj.1 ((String.toList_map ..).trans h)

theorem MergeAlgorithm.toLower_name (m : MergeAlgorithm) : m.name.toLower = m.name := by
  cases m with
  | latest => exact toLower_eq_self (by decide)
  | highest => exact toLower_eq_self (by decide)

theorem MergeAlgorithm.ofText_eq_ok_iff {s : String} {m : MergeAlgorithm} :
    ofText s = .ok m ↔ s.toLower = m.name := by
  constructor
  · intro h
    unfold ofText at h
    split_ifs at h with hlatest hhighest
    · cases h
      exact hlatest
    · cases h
      exact hhighest
  · intro h
    rw [ofText, h]
    cases m <;> rfl

theorem MergeAlgorithm.ofText_name (m : MergeAlgorithm) : ofText m.name = .ok m :=
  ofText_eq_ok_iff.2 m.toLower_name

theorem Propagation.toLower_name (p : Propagation) : p.name.toLower = p.name := by
  cases p with
  | reset => exact toLower_eq_self (by decide)
  | carry => exact toLower_eq_self (by decide)

theorem Propagation.ofText_eq_ok_iff {s : String} {p : Propagation} :
    ofText s = .ok p ↔ s.toLower = p.name := by
  constructor
  · intro h
    unfold ofText at h
    split_ifs at h with hreset hcarry
    · cases h
      exact hreset
    · cases h
      exact hcarry
  · intro h
    rw [ofText, h]
    cases p <;> rfl

theorem Propagation.ofText_name (p : Propagation) : ofText p.name = .ok p :=
  ofText_eq_ok_iff.2 p.toLower_name

namespace Toml.Value

theorem text_eq_ok_iff {v : Value} {s : String} : v.text = .ok s ↔ v = .string s := by
  cases v <;> simp [text]

/-! ## Maps of texts -/

/-- Puts the text of an entry into a map. -/
def addText (m : Properties) (e : String × Value) : Except Misfit Properties := do
  return m.insert e.1 (← e.2.text)

theorem addText_eq_ok_iff {m m' : Properties} {e : String × Value} :
    addText m e = .ok m' ↔ ∃ s, e.2 = .string s ∧ m' = m.insert e.1 s := by
  unfold addText
  rw [bind_eq_ok_iff]
  constructor
  · rintro ⟨s, hs, ⟨⟩⟩
    exact ⟨s, text_eq_ok_iff.1 hs, rfl⟩
  · rintro ⟨s, hs, rfl⟩
    exact ⟨s, text_eq_ok_iff.2 hs, rfl⟩

theorem foldlM_addText_eq_ok_iff {table : Table} {m m' : Properties} :
    table.foldlM addText m = .ok m' ↔
      ∃ entries, table = entries.map (Prod.map id string) ∧ m' = m.insertMany entries := by
  induction table generalizing m with
  | nil =>
    constructor
    · rintro ⟨⟩
      exact ⟨[], rfl, rfl⟩
    · rintro ⟨entries, hes, rfl⟩
      rw [List.map_eq_nil_iff.1 hes.symm]
      rfl
  | cons e rest ih =>
    rw [List.foldlM_cons, bind_eq_ok_iff]
    constructor
    · rintro ⟨m₁, he, hrest⟩
      obtain ⟨s, hs, rfl⟩ := addText_eq_ok_iff.1 he
      obtain ⟨entries, rfl, rfl⟩ := ih.1 hrest
      refine ⟨(e.1, s) :: entries, ?_, rfl⟩
      rw [List.map_cons]
      exact congrArg (· :: _) (Prod.ext rfl hs)
    · rintro ⟨entries, hes, rfl⟩
      obtain ⟨e', entries, rfl, rfl, rfl⟩ := List.map_eq_cons_iff.1 hes.symm
      exact ⟨_, addText_eq_ok_iff.2 ⟨e'.2, rfl, rfl⟩, ih.2 ⟨entries, rfl, rfl⟩⟩

/-- A map of texts holds the entries of its table, in the same order. -/
theorem properties_eq_ok_iff {v : Value} {table : Table} {m : Properties}
    (hv : v.entries? = some table) (hnodup : (table.map Prod.fst).Nodup) :
    v.properties = .ok m ↔ table = m.toList.map (Prod.map id string) := by
  have hfold : v.properties = table.foldlM addText .empty := by
    unfold properties
    rw [hv]
    rfl
  rw [hfold, foldlM_addText_eq_ok_iff]
  constructor
  · rintro ⟨entries, rfl, rfl⟩
    rw [List.map_map] at hnodup
    show _ = (Properties.ofList entries).toList.map _
    rw [Properties.toList_ofList hnodup]
  · intro h
    exact ⟨m.toList, h, m.ofList_toList.symm⟩

/-! ## Blocks -/

/-- Sets the block of an entry. -/
def addBlock (b : Blocks) (e : String × Value) : Except Misfit Blocks := do
  return b.set e.1 (← e.2.properties)

/-- An entry that describes a block. -/
def DescribesBlock (e : String × Value) (e' : String × Properties) : Prop :=
  e.1 = e'.1 ∧ e.2.properties = .ok e'.2

theorem foldlM_addBlock_eq_ok_iff {table : Table} {b b' : Blocks} :
    table.foldlM addBlock b = .ok b' ↔
      ∃ blocks, List.Forall₂ DescribesBlock table blocks ∧ b' = b.setMany blocks := by
  induction table generalizing b with
  | nil =>
    constructor
    · rintro ⟨⟩
      exact ⟨[], .nil, rfl⟩
    · rintro ⟨blocks, hes, rfl⟩
      cases hes
      rfl
  | cons e rest ih =>
    rw [List.foldlM_cons, bind_eq_ok_iff]
    constructor
    · rintro ⟨b₁, he, hrest⟩
      obtain ⟨block, hblock, ⟨⟩⟩ := bind_eq_ok_iff.1 he
      obtain ⟨blocks, hblocks, rfl⟩ := ih.1 hrest
      exact ⟨(e.1, block) :: blocks, .cons ⟨rfl, hblock⟩ hblocks, rfl⟩
    · rintro ⟨blocks, hes, rfl⟩
      obtain _ | @⟨_, e', _, blocks, ⟨hname, hblock⟩, hblocks⟩ := hes
      refine ⟨b.set e.1 e'.2, bind_eq_ok_iff.2 ⟨e'.2, hblock, rfl⟩, ih.2 ⟨blocks, hblocks, ?_⟩⟩
      rw [hname]
      rfl

theorem map_fst_eq_of_describes {table : Table} {blocks : List (String × Properties)}
    (h : List.Forall₂ DescribesBlock table blocks) :
    table.map Prod.fst = blocks.map Prod.fst := by
  induction h with
  | nil => rfl
  | cons he _ ih => rw [List.map_cons, List.map_cons, he.1, ih]

/-- The blocks of a table in order are those that its entries describe. -/
theorem blocks_eq_ok_iff {v : Value} {table : Table} {b : Blocks}
    (hv : v.entries? = some table) (hasc : Ascending.IsAscending table) :
    v.blocks = .ok b ↔ List.Forall₂ DescribesBlock table b.toList := by
  have hfold : v.blocks = table.foldlM addBlock .empty := by
    unfold blocks
    rw [hv]
    rfl
  rw [hfold, foldlM_addBlock_eq_ok_iff]
  constructor
  · rintro ⟨blocks, hblocks, rfl⟩
    have hasc : Ascending.IsAscending blocks := by
      unfold Ascending.IsAscending
      rw [← map_fst_eq_of_describes hblocks]
      exact hasc
    show List.Forall₂ _ _ (Blocks.ofList blocks).toList
    rwa [Blocks.toList_ofList hasc]
  · intro h
    exact ⟨b.toList, h, Blocks.ext (Blocks.toList_ofList b.ascending).symm⟩

end Toml.Value

namespace Settings

open Toml (Table Value)

/-! ## Fields -/

/-- What a table says about a field; where it says nothing, the field stays as it was. -/
def field {α : Type} (table : Table) (name : String) (decode : Value → Except Misfit α)
    (before : α) : Except Misfit α :=
  match table.lookup name with
  | none => .ok before
  | some v => decode v

/-- A policy that is set. -/
def somePolicy {α : Type} (read : String → Except BuildError α) (v : Value) :
    Except Misfit (Option α) :=
  some <$> v.policy read

/-- The table makes settings `s'` of settings `s`. -/
@[mk_iff]
structure Makes (table : Table) (s s' : Settings) : Prop where
  known : ∀ name ∈ table.map Prod.fst, name ∈ fieldNames
  mergeAlgorithm : field table "merge-algorithm" (somePolicy MergeAlgorithm.ofText)
    s.mergeAlgorithm = .ok s'.mergeAlgorithm
  propagation : field table "configuration-propagation" (somePolicy Propagation.ofText)
    s.propagation = .ok s'.propagation
  «variables» : field table "variables" Value.properties s.variables = .ok s'.variables
  frameworkProperties : field table "framework-properties" Value.properties
    s.frameworkProperties = .ok s'.frameworkProperties
  handlers : field table "handlers" Value.blocks s.handlers = .ok s'.handlers

theorem field_nil {α : Type} (name : String) (decode : Value → Except Misfit α) (before : α) :
    field [] name decode before = .ok before := rfl

theorem field_other {α : Type} {name other : String} (h : name ≠ other) (v : Value)
    (decode : Value → Except Misfit α) (before : α) :
    field [(other, v)] name decode before = .ok before := by
  simp [field, List.lookup_cons, beq_eq_false_iff_ne.2 h]

/-- Of two parts of a table only one says something about a field. -/
theorem field_cons {α : Type} {e : String × Value} {rest : Table} (h : e.1 ∉ rest.map Prod.fst)
    (name : String) (decode : Value → Except Misfit α) (before after : α) :
    field (e :: rest) name decode before = .ok after ↔
      ∃ a, field [e] name decode before = .ok a ∧ field rest name decode a = .ok after := by
  obtain ⟨other, v⟩ := e
  by_cases hn : name = other
  · subst hn
    have hrest : rest.lookup name = none := Ascending.lookup_eq_none_iff.2 h
    simp [field, hrest]
  · rw [field_other hn]
    simp [field, List.lookup_cons, beq_eq_false_iff_ne.2 hn]

theorem makes_nil_iff {s s' : Settings} : Makes [] s s' ↔ s = s' := by
  constructor
  · rintro ⟨-, h₁, h₂, h₃, h₄, h₅⟩
    rw [field_nil] at h₁ h₂ h₃ h₄ h₅
    cases s
    cases s'
    cases h₁
    cases h₂
    cases h₃
    cases h₄
    cases h₅
    rfl
  · rintro rfl
    exact ⟨nofun, rfl, rfl, rfl, rfl, rfl⟩

theorem makes_cons_iff {e : String × Value} {rest : Table} (h : e.1 ∉ rest.map Prod.fst)
    {s s' : Settings} :
    Makes (e :: rest) s s' ↔ ∃ s₁, Makes [e] s s₁ ∧ Makes rest s₁ s' := by
  constructor
  · rintro ⟨hknown, h₁, h₂, h₃, h₄, h₅⟩
    obtain ⟨m, h₁, h₁'⟩ := (field_cons h _ _ _ _).1 h₁
    obtain ⟨p, h₂, h₂'⟩ := (field_cons h _ _ _ _).1 h₂
    obtain ⟨vs, h₃, h₃'⟩ := (field_cons h _ _ _ _).1 h₃
    obtain ⟨fs, h₄, h₄'⟩ := (field_cons h _ _ _ _).1 h₄
    obtain ⟨bs, h₅, h₅'⟩ := (field_cons h _ _ _ _).1 h₅
    have hhead : ∀ name ∈ [e].map Prod.fst, name ∈ fieldNames := by
      intro name hname
      exact hknown name (List.mem_cons.2 (.inl (List.mem_singleton.1 hname)))
    have htail : ∀ name ∈ rest.map Prod.fst, name ∈ fieldNames :=
      fun name hname => hknown name (List.mem_cons_of_mem _ hname)
    exact ⟨⟨m, p, vs, fs, bs⟩, ⟨hhead, h₁, h₂, h₃, h₄, h₅⟩, ⟨htail, h₁', h₂', h₃', h₄', h₅'⟩⟩
  · rintro ⟨s₁, h₁, h₂⟩
    have hknown : ∀ name ∈ (e :: rest).map Prod.fst, name ∈ fieldNames := by
      intro name hname
      rcases List.mem_cons.1 hname with rfl | hname
      · exact h₁.known _ List.mem_cons_self
      · exact h₂.known name hname
    exact ⟨hknown, (field_cons h _ _ _ _).2 ⟨_, h₁.mergeAlgorithm, h₂.mergeAlgorithm⟩,
      (field_cons h _ _ _ _).2 ⟨_, h₁.propagation, h₂.propagation⟩,
      (field_cons h _ _ _ _).2 ⟨_, h₁.variables, h₂.variables⟩,
      (field_cons h _ _ _ _).2 ⟨_, h₁.frameworkProperties, h₂.frameworkProperties⟩,
      (field_cons h _ _ _ _).2 ⟨_, h₁.handlers, h₂.handlers⟩⟩

theorem addField_eq_ok_iff {s s' : Settings} {name : String} {v : Value} :
    s.addField name v = .ok s' ↔ Makes [(name, v)] s s' := by
  obtain ⟨m, p, vs, fs, bs⟩ := s
  obtain ⟨m', p', vs', fs', bs'⟩ := s'
  unfold addField
  split
  · cases hv : v.policy MergeAlgorithm.ofText <;>
      simp [makes_iff, field, List.lookup_cons, fieldNames, somePolicy, hv]
  · cases hv : v.policy Propagation.ofText <;>
      simp [makes_iff, field, List.lookup_cons, fieldNames, somePolicy, hv]
  · cases hv : v.properties <;> simp [makes_iff, field, List.lookup_cons, fieldNames, hv]
  · cases hv : v.properties <;> simp [makes_iff, field, List.lookup_cons, fieldNames, hv]
  · cases hv : v.blocks <;> simp [makes_iff, field, List.lookup_cons, fieldNames, hv]
  · rename_i h₁ h₂ h₃ h₄ h₅
    constructor
    · exact nofun
    · intro h
      have hname : name ∈ fieldNames := h.known name List.mem_cons_self
      simp only [fieldNames, List.mem_cons, List.not_mem_nil, or_false] at hname
      rcases hname with h | h | h | h | h
      · exact absurd h h₁
      · exact absurd h h₂
      · exact absurd h h₃
      · exact absurd h h₄
      · exact absurd h h₅

theorem foldlM_addField_eq_ok_iff {table : Table} (h : (table.map Prod.fst).Nodup)
    {s s' : Settings} :
    table.foldlM (fun s e => s.addField e.1 e.2) s = .ok s' ↔ Makes table s s' := by
  induction table generalizing s with
  | nil =>
    rw [makes_nil_iff]
    constructor
    · rintro ⟨⟩
      rfl
    · rintro rfl
      rfl
  | cons e rest ih =>
    obtain ⟨hfresh, hrest⟩ := List.nodup_cons.1 h
    rw [List.foldlM_cons, bind_eq_ok_iff, makes_cons_iff hfresh]
    simp only [addField_eq_ok_iff, ih hrest]

/-- A table is settings if its fields are. -/
theorem ofTable_eq_ok_iff {table : Table} (h : (table.map Prod.fst).Nodup) {s : Settings} :
    ofTable table = .ok s ↔ Makes table empty s :=
  foldlM_addField_eq_ok_iff h

/-! ## Single fields -/

/-- What holds of nothing and of all that is decoded holds of a field. -/
theorem of_field {α : Type} {P : α → Prop} {table : Table} {name : String}
    {decode : Value → Except Misfit α} {before after : α} (hbefore : P before)
    (hdecode : ∀ e ∈ table, ∀ a, decode e.2 = .ok a → P a)
    (h : field table name decode before = .ok after) : P after := by
  unfold field at h
  split at h
  · cases h
    exact hbefore
  · rename_i v hl
    exact hdecode (name, v) (Ascending.mem_of_lookup hl) after h

theorem field_policy {α : Type} {table : Table} {name : String} {policy : Option α}
    {nameOf : α → String} {ofText : String → Except BuildError α}
    (hread : ∀ a, ofText (nameOf a) = .ok a)
    (h : table.lookup name = policy.map fun a => .string (nameOf a)) :
    field table name (somePolicy ofText) none = .ok policy := by
  unfold field
  rw [h]
  cases policy with
  | none => rfl
  | some a =>
    show some <$> (ofText (nameOf a)).mapError _ = _
    rw [hread]
    rfl

end Settings

end FeatureMerge
