import FeatureMerge.Proofs.Settings.Fields
import FeatureMerge.Proofs.Toml.Tables

/-!
# The document of settings

`root` is what reading the document of given settings leads to, block by block.
Its fields are those of the settings again, each map in ascending order
(`ofToml_toToml_sorted`).
-/

namespace FeatureMerge

/-! ## Tables of texts -/

namespace Toml

open Toml.Tree (Entries texts textTable finishEntries)

theorem finish_textTable (m : Properties) :
    (textTable m.toList).finish = .table (m.sorted.toList.map (Prod.map id Value.string)) := by
  have hfinish : Tree.finish ∘ (fun s => Tree.value (.string s)) = Value.string := by
    funext s
    exact Tree.finish_value _
  rw [textTable, Tree.finish_table, Tree.finishEntries_eq_map, texts, ← Ascending.map_ofList,
    List.map_map, Prod.map_comp_map, hfinish]
  rfl

theorem properties_textTable (m : Properties) :
    (textTable m.toList).finish.properties = .ok m.sorted := by
  have hnodup : ((m.sorted.toList.map (Prod.map id Value.string)).map Prod.fst).Nodup := by
    rw [List.map_map]
    exact m.sorted.nodup_keys
  rw [finish_textTable]
  exact (Value.properties_eq_ok_iff rfl hnodup).2 rfl

/-- The blocks of handlers as they stand in a document. -/
theorem blocks_textTables (b : Blocks) (origin : Origin) :
    (Tree.table origin (Ascending.ofList
      (b.toList.map (Prod.map id fun m => textTable m.toList)))).finish.blocks = .ok b.sorted := by
  let finished (m : Properties) : Value := (textTable m.toList).finish
  have hasc : Ascending.IsAscending (b.toList.map (Prod.map id finished)) :=
    b.ascending.map finished
  have hdescribes : List.Forall₂ Value.DescribesBlock (b.toList.map (Prod.map id finished))
      b.sorted.toList := by
    show List.Forall₂ _ _ (b.toList.map (Prod.map id Properties.sorted))
    rw [List.forall₂_map_left_iff, List.forall₂_map_right_iff, List.forall₂_same]
    exact fun e _ => ⟨rfl, properties_textTable e.2⟩
  rw [Tree.finish_table, Tree.finishEntries_eq_map, Ascending.ofList_eq_self (b.ascending.map _),
    List.map_map, Prod.map_comp_map]
  exact (Value.blocks_eq_ok_iff rfl hasc).2 hdescribes

end Toml

namespace Settings

open Toml (Table Value)
open Toml.Reader (Reads ReadsAll)
open Toml.Tree (Entries texts textTable)

/-! ## The document that is written -/

/-- The policies that are set. -/
def policyTexts (s : Settings) : List Entry :=
  (s.mergeAlgorithm.map fun m => ("merge-algorithm", m.name)).toList ++
    (s.propagation.map fun p => ("configuration-propagation", p.name)).toList

/-- Adds a table, unless it is empty. -/
def addTable (name : String) (m : Properties) (root : Entries) : Entries :=
  if m.isEmpty then root else Ascending.insert name (textTable m.toList) root

/-- The blocks of handlers as tables of texts. -/
def handlerTexts (b : Blocks) : List (String × List Entry) :=
  b.toList.map (Prod.map id Properties.toList)

/-- The table of all handlers. -/
def handlerTable (b : Blocks) : Toml.Tree :=
  .table .implied (Ascending.ofList ((handlerTexts b).map (Prod.map id textTable)))

/-- Adds the table of all handlers, if there are any. -/
def addHandlers (b : Blocks) (root : Entries) : Entries :=
  if b.isEmpty then root else Ascending.insert "handlers" (handlerTable b) root

/-- The entries that reading the written document leads to. -/
def root (s : Settings) : Entries :=
  addHandlers s.handlers <|
    addTable "framework-properties" s.frameworkProperties <|
      addTable "variables" s.variables <| Ascending.ofList (texts s.policyTexts)

theorem policyLines_eq (s : Settings) :
    s.policyLines = s.policyTexts.flatMap fun e => Toml.Writer.assignment e.1 e.2 := by
  unfold policyLines policyTexts
  cases s.mergeAlgorithm <;> cases s.propagation <;> simp

theorem nodup_keys_policyTexts (s : Settings) : (s.policyTexts.map Prod.fst).Nodup := by
  unfold policyTexts
  cases s.mergeAlgorithm <;> cases s.propagation <;> simp

theorem reads_policyLines (s : Settings) :
    Reads ⟨[], []⟩ s.policyLines ⟨Ascending.ofList (texts s.policyTexts), []⟩ := by
  rw [policyLines_eq]
  exact Toml.Tree.reads_assignments Toml.Tree.focus_root s.nodup_keys_policyTexts fun _ _ => rfl

theorem reads_propertyTable {name : String} {root : Entries} (h : root.lookup name = none)
    (m : Properties) (before : List String) :
    ∃ after, Reads ⟨root, before⟩ (propertyTable name m) ⟨addTable name m root, after⟩ := by
  unfold propertyTable addTable
  split
  · exact ⟨before, .nil _⟩
  · have hfocus := Toml.Tree.focus_root root
    exact ⟨_, Toml.Tree.reads_table hfocus Toml.Tree.focus_root (by decide) h m.nodup_keys before⟩

theorem readsAll_handlers {root : Entries} (h : root.lookup "handlers" = none) (b : Blocks)
    (before : List String) :
    ∃ after, ReadsAll ⟨root, before⟩
      (b.toList.map fun e => Toml.Writer.table ["handlers", e.1] e.2.toList)
      ⟨addHandlers b root, after⟩ := by
  have hkeys : ((handlerTexts b).map Prod.fst).Nodup :=
    (b.ascending.map Properties.toList).nodup_keys
  have htables : ∀ t ∈ handlerTexts b, (t.2.map Prod.fst).Nodup := by
    intro t ht
    obtain ⟨e, -, rfl⟩ := List.mem_map.1 ht
    exact e.2.nodup_keys
  have hput := fun inner =>
    Toml.Tree.focus_insert (Toml.Tree.focus_root inner) "handlers" .implied root
  have hread := Toml.Tree.readsAll_tables (Toml.Tree.focus_absent h) hput (by decide) hkeys
    htables (fun _ _ => rfl) before
  have hlines : (handlerTexts b).map (fun t => Toml.Writer.table ["handlers", t.1] t.2) =
      b.toList.map fun e => Toml.Writer.table ["handlers", e.1] e.2.toList := List.map_map
  have hempty : (handlerTexts b).isEmpty = b.isEmpty := List.isEmpty_map
  rw [hempty] at hread
  rw [← hlines]
  exact hread

/-! ## What is found in it -/

theorem lookup_addTable (name key : String) (m : Properties) (root : Entries) :
    (addTable name m root).lookup key =
      if key = name ∧ m.isEmpty = false then some (textTable m.toList) else root.lookup key := by
  unfold addTable
  cases m.isEmpty with
  | true => simp
  | false => simp [Ascending.lookup_insert]

theorem lookup_addHandlers (key : String) (b : Blocks) (root : Entries) :
    (addHandlers b root).lookup key =
      if key = "handlers" ∧ b.isEmpty = false then some (handlerTable b)
      else root.lookup key := by
  unfold addHandlers
  cases b.isEmpty with
  | true => simp
  | false => simp [Ascending.lookup_insert]

theorem lookup_policyTexts (s : Settings) (key : String) :
    (Ascending.ofList (texts s.policyTexts)).lookup key =
      if key = "configuration-propagation" then
        s.propagation.map fun p => .value (.string p.name)
      else if key = "merge-algorithm" then
        s.mergeAlgorithm.map fun m => .value (.string m.name)
      else none := by
  unfold policyTexts
  cases s.mergeAlgorithm <;> cases s.propagation <;>
    simp [texts, Ascending.ofList, Ascending.lookup_insert]
  rintro rfl
  decide

/-- The blocks of the document lead to these entries. -/
theorem readsAll_blocks (s : Settings) : ∃ after, ReadsAll ⟨[], []⟩
    ([s.policyLines, propertyTable "variables" s.variables,
      propertyTable "framework-properties" s.frameworkProperties] ++
      s.handlers.toList.map fun e => Toml.Writer.table ["handlers", e.1] e.2.toList)
    ⟨s.root, after⟩ := by
  have hvars : (Ascending.ofList (texts s.policyTexts)).lookup "variables" = none := by
    simp [lookup_policyTexts]
  obtain ⟨p₁, h₁⟩ := reads_propertyTable hvars s.variables []
  have hprops : (addTable "variables" s.variables
      (Ascending.ofList (texts s.policyTexts))).lookup "framework-properties" = none := by
    simp [lookup_addTable, lookup_policyTexts]
  obtain ⟨p₂, h₂⟩ := reads_propertyTable hprops s.frameworkProperties p₁
  have hhandlers : (addTable "framework-properties" s.frameworkProperties
      (addTable "variables" s.variables
        (Ascending.ofList (texts s.policyTexts)))).lookup "handlers" = none := by
    simp [lookup_addTable, lookup_policyTexts]
  obtain ⟨p₃, h₃⟩ := readsAll_handlers hhandlers s.handlers p₂
  exact ⟨p₃, .cons s.reads_policyLines (.cons h₁ (.cons h₂ h₃))⟩

/-! ## The settings that are read -/

def sorted (s : Settings) : Settings :=
  { s with
    «variables» := s.variables.sorted
    frameworkProperties := s.frameworkProperties.sorted
    handlers := s.handlers.sorted }

theorem isAscending_addTable (name : String) (m : Properties) {root : Entries}
    (h : Ascending.IsAscending root) : Ascending.IsAscending (addTable name m root) := by
  unfold addTable
  split
  · exact h
  · exact h.insert name _

theorem isAscending_root (s : Settings) : Ascending.IsAscending s.root := by
  have hpolicies := Ascending.isAscending_ofList (texts s.policyTexts)
  have htables := isAscending_addTable "framework-properties" s.frameworkProperties
    (isAscending_addTable "variables" s.variables hpolicies)
  unfold root addHandlers
  split
  · exact htables
  · exact htables.insert "handlers" _

theorem lookup_root (s : Settings) (key : String) :
    s.root.lookup key =
      if key = "handlers" ∧ s.handlers.isEmpty = false then
        some (handlerTable s.handlers)
      else if key = "framework-properties" ∧ s.frameworkProperties.isEmpty = false then
        some (textTable s.frameworkProperties.toList)
      else if key = "variables" ∧ s.variables.isEmpty = false then
        some (textTable s.variables.toList)
      else (Ascending.ofList (texts s.policyTexts)).lookup key := by
  rw [root, lookup_addHandlers, lookup_addTable, lookup_addTable]

theorem mem_fieldNames_of_mem_root {s : Settings} {name : String}
    (h : name ∈ s.root.map Prod.fst) : name ∈ fieldNames := by
  have hsome : s.root.lookup name ≠ none := fun hn => Ascending.lookup_eq_none_iff.1 hn h
  rw [lookup_root, lookup_policyTexts] at hsome
  simp only [fieldNames, List.mem_cons, List.not_mem_nil, or_false]
  by_contra hname
  simp only [not_or] at hname
  simp [hname] at hsome

theorem field_propertyTable {table : Table} {name : String} {m : Properties}
    (h : table.lookup name =
      if m.isEmpty = false then some (textTable m.toList).finish else none) :
    field table name Value.properties .empty = .ok m.sorted := by
  unfold field
  rw [h]
  cases hm : m.isEmpty with
  | true =>
    rw [Properties.eq_empty_of_isEmpty hm]
    rfl
  | false => exact Toml.properties_textTable m

theorem field_handlers {table : Table} {b : Blocks}
    (h : table.lookup "handlers" =
      if b.isEmpty = false then some (handlerTable b).finish else none) :
    field table "handlers" Value.blocks .empty = .ok b.sorted := by
  unfold field
  rw [h]
  cases hb : b.isEmpty with
  | true =>
    rw [Blocks.eq_empty_of_isEmpty hb]
    rfl
  | false =>
    rw [handlerTable, handlerTexts, List.map_map]
    exact Toml.blocks_textTables b .implied

theorem makes_root (s : Settings) : Makes (Toml.Tree.finishEntries s.root) empty s.sorted := by
  have hlookup (key : String) : (Toml.Tree.finishEntries s.root).lookup key =
      (s.root.lookup key).map Toml.Tree.finish := Toml.Tree.lookup_finishEntries key s.root
  refine ⟨?_, ?_, ?_, ?_, ?_, ?_⟩
  · intro name hname
    rw [Toml.Tree.finishEntries_eq_map, List.map_map] at hname
    exact mem_fieldNames_of_mem_root hname
  · refine field_policy MergeAlgorithm.ofText_name ?_
    simp [hlookup, lookup_root, lookup_policyTexts, sorted, Function.comp_def]
  · refine field_policy Propagation.ofText_name ?_
    simp [hlookup, lookup_root, lookup_policyTexts, sorted, Function.comp_def]
  · refine field_propertyTable ?_
    cases hm : s.variables.isEmpty <;> simp [hlookup, lookup_root, lookup_policyTexts, hm]
  · refine field_propertyTable ?_
    cases hm : s.frameworkProperties.isEmpty <;> simp [hlookup, lookup_root, lookup_policyTexts, hm]
  · refine field_handlers ?_
    cases hb : s.handlers.isEmpty <;> simp [hlookup, lookup_root, lookup_policyTexts, hb]

/-- Settings come back in order. -/
theorem ofToml_toToml_sorted (s : Settings) : ofToml s.toToml = .ok s.sorted := by
  obtain ⟨after, hall⟩ := s.readsAll_blocks
  have hread : Table.read s.toToml = some (Toml.Tree.finishEntries s.root) :=
    Toml.Table.read_of_reads (Toml.Reader.reads_document hall)
  have hnodup : ((Toml.Tree.finishEntries s.root).map Prod.fst).Nodup := by
    rw [Toml.Tree.finishEntries_eq_map]
    exact (s.isAscending_root.map _).nodup_keys
  unfold ofToml
  rw [hread]
  exact mapError_eq_ok_iff.2 ((ofTable_eq_ok_iff hnodup).2 s.makes_root)

end Settings

end FeatureMerge
