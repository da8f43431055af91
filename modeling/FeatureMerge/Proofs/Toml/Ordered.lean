import FeatureMerge.Proofs.Toml.Tables

/-!
# Tables in order

Whatever a document says, the tables that are read from it list their entries in
ascending order, at any depth (`isAscending_of_read`). Each change of a draft keeps
this, so each line does, and so does a document.
-/

namespace FeatureMerge.Toml

namespace Value

/-- Neither an array nor a table. -/
def isLeaf : Value → Bool
  | array _ | table _ => false
  | _ => true

/-- All tables within are in order. -/
inductive IsOrdered : Value → Prop where
  | leaf {v : Value} : v.isLeaf = true → IsOrdered v
  | array {items : List Value} : (∀ v ∈ items, IsOrdered v) → IsOrdered (.array items)
  | table {entries : Table} : Ascending.IsAscending entries →
      (∀ e ∈ entries, IsOrdered e.2) → IsOrdered (.table entries)

theorem IsOrdered.entries {v : Value} {entries : Table} (h : v.IsOrdered)
    (hv : v.entries? = some entries) :
    Ascending.IsAscending entries ∧ ∀ e ∈ entries, e.2.IsOrdered := by
  cases h with
  | leaf hleaf =>
    cases v with
    | moment m =>
      cases hv
      refine ⟨List.pairwise_singleton _ _, fun e he => ?_⟩
      rw [List.mem_singleton.1 he]
      exact .leaf rfl
    | table => cases hleaf
    | _ => cases hv
  | array => cases hv
  | table hasc hvalues =>
    cases hv
    exact ⟨hasc, hvalues⟩

theorem IsOrdered.lookup {entries : Table} (h : (Value.table entries).IsOrdered) {key : String}
    (hv : entries.lookup key = some v) : v.IsOrdered :=
  (h.entries rfl).2 (key, v) (Ascending.mem_of_lookup hv)

end Value

namespace Tree

inductive IsOrdered : Tree → Prop where
  | value {v : Value} : v.IsOrdered → IsOrdered (value v)
  | table {origin : Origin} {entries : Entries} : Ascending.IsAscending entries →
      (∀ e ∈ entries, IsOrdered e.2) → IsOrdered (table origin entries)
  | tables {before : List Value} {last : Entries} : (∀ v ∈ before, v.IsOrdered) →
      Ascending.IsAscending last → (∀ e ∈ last, IsOrdered e.2) → IsOrdered (tables before last)

/-- Entries in order, with all that is within. -/
structure AreOrdered (entries : Entries) : Prop where
  ascending : Ascending.IsAscending entries
  values : ∀ e ∈ entries, e.2.IsOrdered

theorem areOrdered_nil : AreOrdered [] := ⟨Ascending.isAscending_nil, nofun⟩

theorem AreOrdered.table {entries : Entries} (h : AreOrdered entries) (origin : Origin) :
    (Tree.table origin entries).IsOrdered :=
  .table h.ascending h.values

theorem AreOrdered.tables {before : List Value} (hbefore : ∀ v ∈ before, v.IsOrdered)
    {last : Entries} (h : AreOrdered last) : (Tree.tables before last).IsOrdered :=
  .tables hbefore h.ascending h.values

theorem AreOrdered.insert {entries : Entries} (h : AreOrdered entries) {tree : Tree}
    (ht : tree.IsOrdered) (key : String) : AreOrdered (Ascending.insert key tree entries) := by
  refine ⟨h.ascending.insert key tree, fun e he => ?_⟩
  rcases Ascending.mem_insert he with rfl | he
  · exact ht
  · exact h.values e he

theorem AreOrdered.lookup {entries : Entries} (h : AreOrdered entries) {key : String}
    {tree : Tree} (hl : entries.lookup key = some tree) : tree.IsOrdered :=
  h.values (key, tree) (Ascending.mem_of_lookup hl)

/-! ## Finished values -/

theorem isOrdered_finishEntries {entries : Entries} (hasc : Ascending.IsAscending entries)
    (h : ∀ e ∈ entries, e.2.finish.IsOrdered) :
    (Value.table (finishEntries entries)).IsOrdered := by
  rw [finishEntries_eq_map]
  refine .table (hasc.map finish) fun e he => ?_
  obtain ⟨e', he', rfl⟩ := List.mem_map.1 he
  exact h e' he'

theorem IsOrdered.finish {tree : Tree} (h : tree.IsOrdered) : tree.finish.IsOrdered := by
  induction h with
  | value hv => rwa [Tree.finish]
  | table hasc _ ih =>
    rw [Tree.finish]
    exact isOrdered_finishEntries hasc ih
  | tables hbefore hasc _ ih =>
    rw [Tree.finish]
    refine .array fun v hv => ?_
    rcases List.mem_append.1 hv with hv | hv
    · exact hbefore v hv
    · rw [List.mem_singleton.1 hv]
      exact isOrdered_finishEntries hasc ih

theorem AreOrdered.finish {entries : Entries} (h : AreOrdered entries) :
    (Value.table (finishEntries entries)).IsOrdered :=
  isOrdered_finishEntries h.ascending fun e he => (h.values e he).finish

/-! ## Changes -/

/-- The change keeps entries in order. -/
def Keeps (change : Entries → Option Entries) : Prop :=
  ∀ {entries entries' : Entries}, AreOrdered entries → change entries = some entries' →
    AreOrdered entries'

theorem keeps_openTable (key : String) : Keeps (openTable key) := by
  intro entries entries' h hc
  unfold openTable at hc
  split at hc
  · cases hc
    exact h.insert (areOrdered_nil.table _) key
  · rename_i inner hl
    cases hc
    cases h.lookup hl with
    | table hasc hvalues => exact h.insert (.table hasc hvalues) key
  · cases hc

theorem keeps_appendTable (key : String) : Keeps (appendTable key) := by
  intro entries entries' h hc
  unfold appendTable at hc
  split at hc
  · cases hc
    exact h.insert (areOrdered_nil.tables (List.forall_mem_nil _)) key
  · rename_i before last hl
    cases hc
    cases h.lookup hl with
    | tables hbefore hasc hvalues =>
      refine h.insert (areOrdered_nil.tables fun v hv => ?_) key
      rcases List.mem_append.1 hv with hv | hv
      · exact hbefore v hv
      · rw [List.mem_singleton.1 hv]
        exact AreOrdered.finish ⟨hasc, hvalues⟩
  · cases hc

/-- Putting back what has become of the entries of a table keeps the entries around it in order. -/
theorem AreOrdered.putBack {entries entries' : Entries} (h : AreOrdered entries) {key : String}
    {inner? : Option Entries} {build : Entries → Tree}
    (hbuild : ∀ inner, inner? = some inner → (build inner).IsOrdered)
    (hc : ((inner?.map build).bind fun tree => some (Ascending.insert key tree entries)) =
      some entries') : AreOrdered entries' := by
  obtain ⟨tree, htree, hinsert⟩ := Option.bind_eq_some_iff.1 hc
  obtain ⟨inner, hinner, rfl⟩ := Option.map_eq_some_iff.1 htree
  cases hinsert
  exact h.insert (hbuild inner hinner) key

theorem keeps_within {change : Entries → Option Entries} (hchange : Keeps change)
    (path : List String) : Keeps (within change path) := by
  induction path with
  | nil => exact hchange
  | cons key path ih =>
    intro entries entries' h hc
    rw [within] at hc
    split at hc
    · exact h.putBack (fun inner hw => (ih areOrdered_nil hw).table _) hc
    · rename_i hl
      cases h.lookup hl with
      | table hasc hvalues =>
        exact h.putBack (fun inner hw => (ih ⟨hasc, hvalues⟩ hw).table _) hc
    · rename_i hl
      cases h.lookup hl with
      | tables hbefore hasc hvalues =>
        exact h.putBack (fun inner hw => (ih ⟨hasc, hvalues⟩ hw).tables hbefore) hc
    · cases hc

theorem keeps_assign {v : Value} (hv : v.IsOrdered) (path : List String) :
    Keeps (assign v path) := by
  induction path with
  | nil =>
    intro entries entries' h hc
    cases hc
  | cons key path ih =>
    intro entries entries' h hc
    cases path with
    | nil =>
      rw [assign] at hc
      split at hc
      · cases hc
        exact h.insert (.value hv) key
      · cases hc
    | cons key' path =>
      rw [assign] at hc
      · split at hc
        · exact h.putBack (fun inner hw => (ih areOrdered_nil hw).table _) hc
        · rename_i hl
          cases h.lookup hl with
          | table hasc hvalues =>
            exact h.putBack (fun inner hw => (ih ⟨hasc, hvalues⟩ hw).table _) hc
        · rename_i hl
          split at hc
          · cases hc
          cases h.lookup hl with
          | table hasc hvalues =>
            exact h.putBack (fun inner hw => (ih ⟨hasc, hvalues⟩ hw).table _) hc
        · rename_i hl
          split at hc
          · cases hc
          cases h.lookup hl with
          | tables hbefore hasc hvalues =>
            exact h.putBack (fun inner hw => (ih ⟨hasc, hvalues⟩ hw).tables hbefore) hc
        · cases hc
        · cases hc
      · intro he
        cases he

/-- Assignments give a table in order. -/
theorem isOrdered_ofAssignments {assignments : List (List String × Value)} {entries : Table}
    (hvalues : ∀ a ∈ assignments, a.2.IsOrdered) (h : ofAssignments assignments = some entries) :
    (Value.table entries).IsOrdered := by
  have hfold : ∀ {before after : Entries}, AreOrdered before →
      assignments.foldlM (fun entries a => assign a.2 a.1 entries) before = some after →
      AreOrdered after := by
    clear h
    induction assignments with
    | nil =>
      rintro before after hb ⟨⟩
      exact hb
    | cons a rest ih =>
      intro before after hb hc
      obtain ⟨between, ha, hrest⟩ := Option.bind_eq_some_iff.1 hc
      have ha := keeps_assign (hvalues a List.mem_cons_self) a.1 hb ha
      exact ih (fun a' ha' => hvalues a' (List.mem_cons_of_mem _ ha')) ha hrest
  obtain ⟨after, hafter, rfl⟩ := Option.map_eq_some_iff.1 h
  exact (hfold areOrdered_nil hafter).finish

end Tree

/-! ## Values -/

namespace Scalar

theorem isLeaf_of_float? {cs : List Char} {v : Value} (h : float? cs = some v) :
    v.isLeaf = true := by
  unfold float? at h
  dsimp only at h
  split at h
  · cases h
    rfl
  split at h
  · cases h
    rfl
  · obtain ⟨x, -, rfl⟩ := Option.map_eq_some_iff.1 h
    split <;> rfl

theorem isLeaf_of_ofWord? {cs : List Char} {v : Value} (h : ofWord? cs = some v) :
    v.isLeaf = true := by
  unfold ofWord? at h
  split at h
  · cases h
    rfl
  split at h
  · cases h
    rfl
  split at h
  · cases h
    rfl
  · rename_i hfloat
    cases h
    exact isLeaf_of_float? hfloat
  · obtain ⟨m, -, rfl⟩ := Option.map_eq_some_iff.1 h
    rfl

theorem isOrdered_of_read {cs rest : List Char} {v : Value} (h : read cs = some (v, rest)) :
    v.IsOrdered := by
  unfold read at h
  obtain ⟨v', hv', ⟨⟩⟩ := Option.map_eq_some_iff.1 h
  exact .leaf (isLeaf_of_ofWord? hv')

end Scalar

namespace Reader

theorem isOrdered_of_readString {cs rest : List Char} {v : Value}
    (h : readString cs = some (v, rest)) : v.IsOrdered := by
  have htext : ∀ {form cs}, readString.text form cs = some (v, rest) → v.IsOrdered := by
    intro form cs h
    obtain ⟨⟨s, after⟩, -, ⟨⟩⟩ := Option.map_eq_some_iff.1 h
    exact .leaf rfl
  unfold readString at h
  split at h
  · exact htext h
  · exact htext h
  · exact htext h
  · exact htext h
  · cases h

/-- With this much fuel values, items and assignments come in order. -/
structure ReadsOrdered (fuel : Nat) : Prop where
  value : ∀ {depth : Nat} {cs rest : List Char} {v : Value},
    readValue fuel depth cs = some (v, rest) → v.IsOrdered
  items : ∀ {depth : Nat} {cs rest : List Char} {items : List Value},
    readItems fuel depth cs = some (items, rest) → ∀ v ∈ items, v.IsOrdered
  assignments : ∀ {depth : Nat} {cs rest : List Char} {assignments : List (List String × Value)},
    readAssignments fuel depth cs = some (assignments, rest) → ∀ a ∈ assignments, a.2.IsOrdered

theorem ReadsOrdered.value_succ {fuel depth : Nat} {cs rest : List Char} {v : Value}
    (ih : ReadsOrdered fuel) (h : readValue (fuel + 1) depth cs = some (v, rest)) :
    v.IsOrdered := by
  unfold readValue at h
  split at h
  · split at h
    · cases h
    obtain ⟨⟨items, after⟩, hitems, ⟨⟩⟩ := Option.bind_eq_some_iff.1 h
    exact .array (ih.items hitems)
  · split at h
    · cases h
    obtain ⟨⟨assignments, after⟩, hassignments, h⟩ := Option.bind_eq_some_iff.1 h
    obtain ⟨entries, hentries, ⟨⟩⟩ := Option.bind_eq_some_iff.1 h
    exact Tree.isOrdered_ofAssignments (ih.assignments hassignments) hentries
  · split at h
    · exact isOrdered_of_readString h
    · exact Scalar.isOrdered_of_read h
  · cases h

theorem ReadsOrdered.items_succ {fuel depth : Nat} {cs rest : List Char} {items : List Value}
    (ih : ReadsOrdered fuel) (h : readItems (fuel + 1) depth cs = some (items, rest)) :
    ∀ v ∈ items, v.IsOrdered := by
  unfold readItems at h
  obtain ⟨next, -, h⟩ := Option.bind_eq_some_iff.1 h
  split at h
  · cases h
    exact nofun
  obtain ⟨⟨v, after⟩, hv, h⟩ := Option.bind_eq_some_iff.1 h
  have hv := ih.value hv
  obtain ⟨next, -, h⟩ := Option.bind_eq_some_iff.1 h
  split at h
  · cases h
    exact List.forall_mem_singleton.2 hv
  · obtain ⟨⟨vs, after⟩, hvs, ⟨⟩⟩ := Option.bind_eq_some_iff.1 h
    exact List.forall_mem_cons.2 ⟨hv, ih.items hvs⟩
  · cases h

theorem ReadsOrdered.assignments_succ {fuel depth : Nat} {cs rest : List Char}
    {assignments : List (List String × Value)} (ih : ReadsOrdered fuel)
    (h : readAssignments (fuel + 1) depth cs = some (assignments, rest)) :
    ∀ a ∈ assignments, a.2.IsOrdered := by
  unfold readAssignments at h
  obtain ⟨next, -, h⟩ := Option.bind_eq_some_iff.1 h
  split at h
  · cases h
    exact nofun
  obtain ⟨⟨path, after⟩, -, h⟩ := Option.bind_eq_some_iff.1 h
  obtain ⟨next, -, h⟩ := Option.bind_eq_some_iff.1 h
  split at h
  · obtain ⟨start, -, h⟩ := Option.bind_eq_some_iff.1 h
    obtain ⟨⟨v, after⟩, hv, h⟩ := Option.bind_eq_some_iff.1 h
    have hv := ih.value hv
    obtain ⟨next, -, h⟩ := Option.bind_eq_some_iff.1 h
    split at h
    · cases h
      exact List.forall_mem_singleton.2 hv
    · obtain ⟨⟨more, after⟩, hmore, ⟨⟩⟩ := Option.bind_eq_some_iff.1 h
      exact List.forall_mem_cons.2 ⟨hv, ih.assignments hmore⟩
    · cases h
  · cases h

theorem readsOrdered (fuel : Nat) : ReadsOrdered fuel := by
  induction fuel with
  | zero =>
    refine ⟨fun h => ?_, fun h => ?_, fun h => ?_⟩
    · unfold readValue at h
      cases h
    · unfold readItems at h
      cases h
    · unfold readAssignments at h
      cases h
  | succ fuel ih => exact ⟨ih.value_succ, ih.items_succ, ih.assignments_succ⟩

/-! ## Documents -/

/-- A draft in order. -/
def Draft.IsOrdered (d : Draft) : Prop := Tree.AreOrdered d.root

theorem Draft.IsOrdered.header {d d' : Draft} {isArray : Bool} {path : List String}
    (h : d.IsOrdered) (hd : d.header isArray path = some d') : d'.IsOrdered := by
  obtain ⟨key, -, hd⟩ := Option.bind_eq_some_iff.1 hd
  obtain ⟨root, hroot, ⟨⟩⟩ := Option.bind_eq_some_iff.1 hd
  cases isArray with
  | false => exact Tree.keeps_within (Tree.keeps_openTable key) _ h hroot
  | true => exact Tree.keeps_within (Tree.keeps_appendTable key) _ h hroot

theorem Draft.IsOrdered.assign {d d' : Draft} {path : List String} {v : Value}
    (h : d.IsOrdered) (hv : v.IsOrdered) (hd : d.assign path v = some d') : d'.IsOrdered := by
  obtain ⟨root, hroot, ⟨⟩⟩ := Option.bind_eq_some_iff.1 hd
  exact Tree.keeps_within (Tree.keeps_assign hv path) _ h hroot

theorem isOrdered_of_readHeader {d d' : Draft} {isArray : Bool} {cs rest : List Char}
    (h : d.IsOrdered) (hd : readHeader d isArray cs = some (d', rest)) : d'.IsOrdered := by
  unfold readHeader at hd
  obtain ⟨⟨path, after⟩, -, hd⟩ := Option.bind_eq_some_iff.1 hd
  obtain ⟨after, -, hd⟩ := Option.bind_eq_some_iff.1 hd
  obtain ⟨d₁, hheader, ⟨⟩⟩ := Option.bind_eq_some_iff.1 hd
  exact h.header hheader

theorem isOrdered_of_readAssignment {d d' : Draft} {cs rest : List Char} (h : d.IsOrdered)
    (hd : readAssignment d cs = some (d', rest)) : d'.IsOrdered := by
  unfold readAssignment at hd
  obtain ⟨⟨path, after⟩, -, hd⟩ := Option.bind_eq_some_iff.1 hd
  dsimp only at hd
  split at hd
  · obtain ⟨⟨v, after⟩, hv, hd⟩ := Option.bind_eq_some_iff.1 hd
    obtain ⟨d₁, hassign, ⟨⟩⟩ := Option.bind_eq_some_iff.1 hd
    exact h.assign ((readsOrdered _).value hv) hassign
  · cases hd

theorem isOrdered_of_readLine {d d' : Draft} {cs rest : List Char} (h : d.IsOrdered)
    (hd : readLine d cs = some (d', rest)) : d'.IsOrdered := by
  unfold readLine at hd
  split at hd
  · exact isOrdered_of_readHeader h hd
  · exact isOrdered_of_readHeader h hd
  · split at hd
    · cases hd
      exact h
    · exact isOrdered_of_readAssignment h hd
  · cases hd
    exact h

theorem isOrdered_of_readLines {fuel : Nat} {d d' : Draft} {cs : List Char} (h : d.IsOrdered)
    (hd : readLines fuel d cs = some d') : d'.IsOrdered := by
  induction fuel generalizing d cs with
  | zero => cases hd
  | succ fuel ih =>
    unfold readLines at hd
    split at hd
    · cases hd
      exact h
    · obtain ⟨⟨d₁, after⟩, hline, hd⟩ := Option.bind_eq_some_iff.1 hd
      obtain ⟨after, -, hd⟩ := Option.bind_eq_some_iff.1 hd
      exact ih (isOrdered_of_readLine h hline) hd

end Reader

/-- Every table of a document lists its entries in ascending order. -/
theorem isOrdered_of_read {text : String} {table : Table} (h : Table.read text = some table) :
    (Value.table table).IsOrdered := by
  unfold Table.read at h
  obtain ⟨d, hd, rfl⟩ := Option.map_eq_some_iff.1 h
  have hempty : Reader.Draft.IsOrdered ⟨[], []⟩ := Tree.areOrdered_nil
  exact (Reader.isOrdered_of_readLines hempty hd).finish

end FeatureMerge.Toml
