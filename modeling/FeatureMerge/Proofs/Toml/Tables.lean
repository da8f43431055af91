import FeatureMerge.Proofs.Lookup
import FeatureMerge.Proofs.Toml.Lines

/-!
# Tables read back

A table of texts is written as a header and assignments, and reading these adds
the table to what stands at the place of its header (`reads_table`). `Focus`
names that place: headers and assignments below a path change what is found there
and put it back.
-/

namespace FeatureMerge.Toml

namespace Tree

/-! ## Finished entries -/

@[simp] theorem finish_value (v : Value) : (value v).finish = v := by rw [finish]

@[simp] theorem finish_table (origin : Origin) (entries : Entries) :
    (table origin entries).finish = .table (finishEntries entries) := by rw [finish]

theorem finishEntries_eq_map (entries : Entries) :
    finishEntries entries = entries.map (Prod.map id finish) := by
  induction entries with
  | nil => rfl
  | cons e rest ih =>
    obtain ⟨key, tree⟩ := e
    rw [finishEntries, ih]
    rfl

theorem lookup_finishEntries (key : String) (entries : Entries) :
    (finishEntries entries).lookup key = (entries.lookup key).map finish := by
  rw [finishEntries_eq_map, lookup_map]

/-! ## Places -/

/-- Changes along `path` find `inner` in `root` and put back what they make of it. -/
def Focus (path : List String) (root inner : Entries) (put : Entries → Entries) : Prop :=
  ∀ change : Entries → Option Entries, within change path root = (change inner).map put

theorem focus_root (root : Entries) : Focus [] root root id := by
  intro change
  rw [within]
  exact Option.map_id_apply.symm

/-- Where nothing is, an implied table begins. -/
theorem focus_absent {key : String} {root : Entries} (h : root.lookup key = none) :
    Focus [key] root [] fun inner => Ascending.insert key (table .implied inner) root := by
  intro change
  simp only [within, h]
  cases change [] <;> rfl

theorem focus_insert {path : List String} {entries inner : Entries} {put : Entries → Entries}
    (h : Focus path entries inner put) (key : String) (origin : Origin) (root : Entries) :
    Focus (key :: path) (Ascending.insert key (table origin entries) root) inner
      fun inner => Ascending.insert key (table origin (put inner)) root := by
  intro change
  rw [within, Ascending.lookup_insert, if_pos rfl]
  simp only [h change]
  cases change inner with
  | none => rfl
  | some inner =>
    show some (Ascending.insert key _ (Ascending.insert key _ root)) = _
    rw [Ascending.insert_insert]
    rfl

theorem within_append (change : Entries → Option Entries) (path path' : List String)
    (entries : Entries) :
    within change (path ++ path') entries = within (within change path') path entries := by
  induction path generalizing entries with
  | nil => rfl
  | cons key path ih =>
    rw [List.cons_append, within, within]
    simp only [ih]

theorem Focus.trans {path path' : List String} {root inner inner' : Entries}
    {put put' : Entries → Entries} (h : Focus path root inner put)
    (h' : Focus path' inner inner' put') :
    Focus (path ++ path') root inner' fun entries => put (put' entries) := by
  intro change
  rw [within_append, h, h' change, Option.map_map]
  rfl

/-! ## Headers and assignments -/

theorem header_of_focus {path : List String} {key : String} {root inner : Entries}
    {put : Entries → Entries} (h : Focus path root inner put) (hkey : inner.lookup key = none)
    (before : List String) :
    Reader.Draft.header ⟨root, before⟩ false (path ++ [key]) =
      some ⟨put (Ascending.insert key (table .opened []) inner), path ++ [key]⟩ := by
  have hopen : openTable key inner = some (Ascending.insert key (table .opened []) inner) := by
    simp only [openTable, hkey]
  have hwithin := h (openTable key)
  rw [hopen] at hwithin
  simp [Reader.Draft.header, hwithin]

theorem assign_of_focus {path : List String} {key : String} {root inner : Entries}
    {put : Entries → Entries} (h : Focus path root inner put) (hkey : inner.lookup key = none)
    (v : Value) :
    Reader.Draft.assign ⟨root, path⟩ [key] v =
      some ⟨put (Ascending.insert key (value v) inner), path⟩ := by
  have hassign : assign v [key] inner = some (Ascending.insert key (value v) inner) := by
    simp only [assign, hkey]
  have hwithin := h (assign v [key])
  rw [hassign] at hwithin
  simp [Reader.Draft.assign, hwithin]

/-- The entries of a table of texts. -/
def texts (entries : List (String × String)) : Entries :=
  entries.map (Prod.map id fun s => value (.string s))

/-- A table as it stands when all of it has been read. -/
def textTable (entries : List (String × String)) : Tree :=
  table .opened (Ascending.ofList (texts entries))

open Reader (Reads ReadsAll)

theorem reads_assignments {path : List String} {put : Entries → Entries}
    (hput : ∀ inner, Focus path (put inner) inner put) {entries : List (String × String)}
    (hnodup : (entries.map Prod.fst).Nodup) {inner : Entries}
    (hfresh : ∀ e ∈ entries, inner.lookup e.1 = none) :
    Reads ⟨put inner, path⟩ (entries.flatMap fun e => Writer.assignment e.1 e.2)
      ⟨put (Ascending.insertMany inner (texts entries)), path⟩ := by
  induction entries generalizing inner with
  | nil => exact .nil _
  | cons e rest ih =>
    have hassign := assign_of_focus (hput inner) (hfresh e List.mem_cons_self) (.string e.2)
    have hrest := ih (List.nodup_cons.1 hnodup).2
      (Ascending.lookup_insert_of_fresh hnodup hfresh (value (.string e.2)))
    rw [List.flatMap_cons]
    exact (Reader.reads_assignment hassign).trans hrest

theorem reads_table {path : List String} {key : String} {root inner : Entries}
    {put : Entries → Entries} (h : Focus path root inner put)
    (hput : ∀ inner, Focus path (put inner) inner put) (hlen : path.length < Reader.maxDepth)
    (hkey : inner.lookup key = none) {entries : List (String × String)}
    (hnodup : (entries.map Prod.fst).Nodup) (before : List String) :
    Reads ⟨root, before⟩ (Writer.table (path ++ [key]) entries)
      ⟨put (Ascending.insert key (textTable entries) inner), path ++ [key]⟩ := by
  have hopened : ∀ opened, Focus (path ++ [key])
      (put (Ascending.insert key (table .opened opened) inner)) opened
      fun entries => put (Ascending.insert key (table .opened entries) inner) := fun opened =>
    (hput _).trans (focus_insert (focus_root opened) key .opened inner)
  have hheader := Reader.reads_header (by simp) (by rw [List.length_append]; exact hlen)
    (header_of_focus h hkey before)
  exact hheader.trans (reads_assignments hopened hnodup fun _ _ => rfl)

/-- Tables that stand at one place are read one after another; without any nothing changes. -/
theorem readsAll_tables {path : List String} {root inner : Entries} {put : Entries → Entries}
    (h : Focus path root inner put) (hput : ∀ inner, Focus path (put inner) inner put)
    (hlen : path.length < Reader.maxDepth) {tables : List (String × List (String × String))}
    (hnodup : (tables.map Prod.fst).Nodup) (htables : ∀ t ∈ tables, (t.2.map Prod.fst).Nodup)
    (hfresh : ∀ t ∈ tables, inner.lookup t.1 = none) (before : List String) :
    ∃ after, ReadsAll ⟨root, before⟩ (tables.map fun t => Writer.table (path ++ [t.1]) t.2)
      ⟨if tables.isEmpty then root
        else put (Ascending.insertMany inner (tables.map (Prod.map id textTable))), after⟩ := by
  induction tables generalizing root inner before with
  | nil => exact ⟨before, .nil _⟩
  | cons t rest ih =>
    have htable := reads_table h hput hlen (hfresh t List.mem_cons_self)
      (htables t List.mem_cons_self) before
    obtain ⟨after, hrest⟩ := ih (hput _) (List.nodup_cons.1 hnodup).2
      (fun t' ht' => htables t' (List.mem_cons_of_mem _ ht'))
      (Ascending.lookup_insert_of_fresh hnodup hfresh (textTable t.2)) (path ++ [t.1])
    refine ⟨after, .cons htable ?_⟩
    cases rest with
    | nil => exact hrest
    | cons t' rest => exact hrest

end Tree

end FeatureMerge.Toml
