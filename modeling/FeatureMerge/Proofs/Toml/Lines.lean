import FeatureMerge.Proofs.Toml.Quoting
import FeatureMerge.Toml.Reader

/-!
# Documents read back

What the writer puts on a line is read as one step from a draft to the next:
`reads_header` and `reads_assignment`. `Reads` composes such steps, and
`reads_document` those of several blocks, whatever fuel is left.
-/

namespace FeatureMerge.Toml

namespace Form

/-- Two quotes in a row are a whole string of one line. -/
theorem read_quotes {form : Form} (hm : form.isMultiline = false) (cs : List Char) :
    form.read (form.quote :: cs) = some ([], cs) := by
  have hclose : form.close? (form.quote :: cs) = some ([], cs) := by
    simp [close?, hm, List.isPrefixOf?]
  rw [read, scan_of_close? hclose]
  simp only [Option.bind_eq_bind, Option.bind_some, hm, Bool.false_eq_true, if_false, resolve_nil]
  cases form.isBasic <;> rfl

/-- So a string that something else follows does not begin with two quotes more. -/
theorem not_two_quotes {form : Form} (hm : form.isMultiline = false) {cs rest s : List Char}
    (h : form.read cs = some (s, rest)) (hr : rest.head? ≠ some form.quote) (after : List Char) :
    cs ≠ form.quote :: form.quote :: after := by
  rintro rfl
  rw [read_quotes hm] at h
  cases h
  exact hr rfl

end Form

namespace Reader

/-! ## Strings and keys -/

/-- A character with which a key or a text begins. -/
def IsStart (c : Char) : Prop := isBareChar c = true ∨ c = '"' ∨ c = '\''

instance (c : Char) : Decidable (IsStart c) :=
  inferInstanceAs (Decidable (isBareChar c = true ∨ c = '"' ∨ c = '\''))

theorem isStart_quote (form : Form) : IsStart form.quote := by
  unfold Form.quote
  split
  · exact .inr (.inl rfl)
  · exact .inr (.inr rfl)

theorem head?_ne_quote (form : Form) {c : Char} (rest : List Char) (hc : ¬ IsStart c) :
    (c :: rest).head? ≠ some form.quote := by
  intro h
  rw [Option.some.inj h] at hc
  exact hc (isStart_quote form)

theorem readString_delimiter {form : Form} {cs rest s : List Char}
    (h : form.read cs = some (s, rest)) (hr : rest.head? ≠ some form.quote) :
    readString (form.delimiter ++ cs) = some (.string (String.ofList s), rest) := by
  have htext : readString.text form cs = some (.string (String.ofList s), rest) := by
    rw [readString.text, h]
    rfl
  rw [← htext]
  obtain ⟨isBasic, isMultiline⟩ := form
  cases isMultiline with
  | true => cases isBasic <;> rfl
  | false =>
    have hne := Form.not_two_quotes rfl h hr
    cases isBasic with
    | true =>
      show readString ('"' :: cs) = _
      rw [readString]
      · rfl
      · exact hne
    | false =>
      show readString ('\'' :: cs) = _
      rw [readString]
      · rfl
      · exact hne

/-- A value is read up to the end of its line. -/
theorem readString_value (s : String) (rest : List Char) :
    readString (Writer.value s ++ '\n' :: rest) = some (.string s, '\n' :: rest) := by
  have hr := head?_ne_quote (Writer.valueForm s.toList) rest (by decide : ¬ IsStart '\n')
  obtain ⟨written, hw, h⟩ := Form.read_write (Writer.holds_valueForm s.toList) hr
  rw [Writer.value, hw, List.append_assoc, readString_delimiter h hr, String.ofList_toList]

theorem exists_write_eq (form : Form) (s : List Char) :
    ∃ cs, form.write s = form.quote :: cs := by
  have hd : ∃ cs, form.delimiter = form.quote :: cs := by
    unfold Form.delimiter
    split
    · exact ⟨_, rfl⟩
    · exact ⟨_, rfl⟩
  obtain ⟨cs, hd⟩ := hd
  unfold Form.write
  rw [hd]
  exact ⟨_, rfl⟩

theorem exists_key_eq (s : String) : ∃ c cs, IsStart c ∧ Writer.key s = c :: cs := by
  unfold Writer.key
  dsimp only
  split
  · rename_i h
    rw [Bool.and_eq_true] at h
    obtain ⟨hne, hbare⟩ := h
    obtain ⟨c, cs, hs⟩ := List.exists_cons_of_ne_nil (by simpa using hne : s.toList ≠ [])
    rw [hs] at hbare ⊢
    exact ⟨c, cs, .inl (List.all_eq_true.1 hbare c List.mem_cons_self), rfl⟩
  · obtain ⟨cs, hs⟩ := exists_write_eq (Writer.keyForm s.toList) s.toList
    exact ⟨_, cs, isStart_quote _, hs⟩

theorem IsStart.ne {c d : Char} (h : IsStart c) (hd : ¬ IsStart d) : c ≠ d := by
  rintro rfl
  exact hd h

theorem IsStart.isSpace_eq {c : Char} (h : IsStart c) : isSpace c = false := by
  have hs : c ≠ ' ' := h.ne (by decide)
  have ht : c ≠ '\t' := h.ne (by decide)
  simp [isSpace, hs, ht]

theorem IsStart.skipSpaces_eq {c : Char} (h : IsStart c) (cs : List Char) :
    skipSpaces (c :: cs) = c :: cs := by
  rw [skipSpaces, List.dropWhile_cons_of_neg (by rw [h.isSpace_eq]; exact Bool.false_ne_true)]

theorem isMultiline_keyForm (s : List Char) : (Writer.keyForm s).isMultiline = false := by
  unfold Writer.keyForm
  dsimp only
  split
  · rfl
  split
  · rfl
  · rfl

theorem readKey_delimiter {form : Form} (hm : form.isMultiline = false) (cs : List Char) :
    readKey (form.delimiter ++ cs) =
      (form.read cs).map fun (s, rest) => (String.ofList s, rest) := by
  obtain ⟨isBasic, isMultiline⟩ := form
  cases hm
  cases isBasic <;> rfl

/-- A bare key ends where something else begins. -/
theorem readKey_bare {s : List Char} {c : Char} (rest : List Char) (hne : s ≠ [])
    (hs : ∀ d ∈ s, isBareChar d = true) (hc : isBareChar c = false) :
    readKey (s ++ c :: rest) = some (String.ofList s, c :: rest) := by
  have htake : (s ++ c :: rest).takeWhile isBareChar = s := by
    rw [List.takeWhile_append_of_pos hs, List.takeWhile_cons_of_neg (by simp [hc]), List.append_nil]
  have hdrop : (s ++ c :: rest).dropWhile isBareChar = c :: rest := by
    rw [List.dropWhile_append_of_pos hs, List.dropWhile_cons_of_neg (by simp [hc])]
  obtain ⟨d, ds, rfl⟩ := List.exists_cons_of_ne_nil hne
  have hd : isBareChar d = true := hs d List.mem_cons_self
  have hquote : ∀ q, isBareChar q = false → ∀ after, (d :: ds) ++ c :: rest ≠ q :: after := by
    rintro q hq after he
    cases he
    rw [hd] at hq
    cases hq
  rw [readKey]
  · simp only [htake, hdrop]
    rfl
  · exact hquote '"' (by decide)
  · exact hquote '\'' (by decide)

/-- A key is read up to where none could go on. -/
theorem readKey_key (s : String) {c : Char} (rest : List Char) (hc : ¬ IsStart c) :
    readKey (Writer.key s ++ c :: rest) = some (s, c :: rest) := by
  unfold Writer.key
  dsimp only
  split
  · rename_i h
    simp only [Bool.and_eq_true, Bool.not_eq_true', List.isEmpty_eq_false_iff,
      List.all_eq_true] at h
    have hbare : isBareChar c = false := Bool.eq_false_iff.2 fun hb => hc (.inl hb)
    rw [readKey_bare rest h.1 h.2 hbare, String.ofList_toList]
  · have hr := head?_ne_quote (Writer.keyForm s.toList) rest hc
    obtain ⟨written, hw, h⟩ := Form.read_write (Writer.holds_keyForm s.toList) hr
    rw [hw, List.append_assoc, readKey_delimiter (isMultiline_keyForm s.toList), h]
    simp only [Option.map_some, String.ofList_toList]

theorem skipSpaces_key (s : String) (rest : List Char) :
    skipSpaces (Writer.key s ++ rest) = Writer.key s ++ rest := by
  obtain ⟨c, cs, hc, hs⟩ := exists_key_eq s
  rw [hs, List.cons_append, hc.skipSpaces_eq]

theorem readPath_key {limit : Nat} (hlimit : 1 ≤ limit) (s : String) (rest : List Char) :
    readPath limit (Writer.key s ++ ' ' :: '=' :: rest) = some ([s], '=' :: rest) := by
  obtain ⟨limit, rfl⟩ : ∃ n, limit = n + 1 := ⟨limit - 1, by omega⟩
  rw [readPath, skipSpaces_key, readKey_key s _ (by decide)]
  rfl

/-- The path of a header is read up to the closing bracket. -/
theorem readPath_path {limit : Nat} {path : List String} (hne : path ≠ [])
    (hlen : path.length ≤ limit) (rest : List Char) :
    readPath limit (['.'].intercalate (path.map Writer.key) ++ ']' :: rest) =
      some (path, ']' :: rest) := by
  induction path generalizing limit with
  | nil => exact absurd rfl hne
  | cons s path ih =>
    obtain ⟨limit, rfl⟩ : ∃ n, limit = n + 1 := ⟨limit - 1, by rw [List.length_cons] at hlen; omega⟩
    cases path with
    | nil =>
      rw [List.map_singleton, List.intercalate_singleton, readPath, skipSpaces_key,
        readKey_key s _ (by decide)]
      rfl
    | cons t path =>
      have ih := ih (List.cons_ne_nil t path) (Nat.le_of_succ_le_succ hlen)
      rw [List.map_cons] at ih
      rw [List.map_cons, List.map_cons, List.intercalate_cons_cons]
      simp only [List.append_assoc, List.cons_append, List.nil_append]
      rw [readPath, skipSpaces_key, readKey_key s _ (by decide)]
      show (readPath limit _).bind _ = _
      rw [ih]
      rfl

/-! ## Lines -/

theorem exists_path_eq {path : List String} (hne : path ≠ []) :
    ∃ c cs, IsStart c ∧ ['.'].intercalate (path.map Writer.key) = c :: cs := by
  obtain ⟨s, path, rfl⟩ := List.exists_cons_of_ne_nil hne
  obtain ⟨c, cs, hc, hs⟩ := exists_key_eq s
  cases path with
  | nil => exact ⟨c, cs, hc, by rw [List.map_singleton, List.intercalate_singleton, hs]⟩
  | cons t path =>
    rw [List.map_cons, List.map_cons, List.intercalate_cons_cons, hs]
    exact ⟨c, _, hc, rfl⟩

theorem readLine_header {d d' : Draft} {path : List String} (hne : path ≠ [])
    (hlen : path.length ≤ maxDepth) (h : d.header false path = some d') (rest : List Char) :
    readLine d (Writer.header path ++ rest) = some (d', '\n' :: rest) := by
  obtain ⟨c, cs, hc, hpath⟩ := exists_path_eq hne
  have hread := readPath_path hne hlen ('\n' :: rest)
  have heq : Writer.header path ++ rest =
      '[' :: (['.'].intercalate (path.map Writer.key) ++ ']' :: '\n' :: rest) := by
    simp [Writer.header]
  rw [heq, readLine, readHeader, hread]
  · show (d.header false path).bind _ = _
    rw [h]
    rfl
  · intro after he
    rw [hpath] at he
    exact hc.ne (by decide : ¬ IsStart '[') (List.cons.inj he).1

theorem readValue_value {fuel : Nat} (hfuel : 1 ≤ fuel) (depth : Nat) (s : String)
    (rest : List Char) :
    readValue fuel depth (Writer.value s ++ '\n' :: rest) = some (.string s, '\n' :: rest) := by
  obtain ⟨fuel, rfl⟩ : ∃ n, fuel = n + 1 := ⟨fuel - 1, by omega⟩
  have hread := readString_value s rest
  obtain ⟨written, hs⟩ := exists_write_eq (Writer.valueForm s.toList) s.toList
  rw [Writer.value, hs] at hread ⊢
  rw [← hread]
  unfold Form.quote
  split <;> rfl

theorem readAssignment_assignment {d d' : Draft} {name text : String}
    (h : d.assign [name] (.string text) = some d') (rest : List Char) :
    readAssignment d (Writer.assignment name text ++ rest) = some (d', '\n' :: rest) := by
  have heq : Writer.assignment name text ++ rest =
      Writer.key name ++ ' ' :: '=' :: ' ' :: (Writer.value text ++ '\n' :: rest) := by
    simp [Writer.assignment]
  have hskip : skipSpaces (' ' :: (Writer.value text ++ '\n' :: rest)) =
      Writer.value text ++ '\n' :: rest := by
    obtain ⟨written, htext⟩ := exists_write_eq (Writer.valueForm text.toList) text.toList
    rw [Writer.value, htext]
    exact (isStart_quote _).skipSpaces_eq _
  rw [heq, readAssignment, readPath_key (by decide)]
  simp only [Option.bind_eq_bind, Option.bind_some, hskip]
  rw [readValue_value (by omega)]
  simp only [Option.bind_some, h]
  rfl

theorem exists_assignment_eq (name text : String) (rest : List Char) :
    ∃ c cs, IsStart c ∧ Writer.assignment name text ++ rest = c :: cs := by
  obtain ⟨c, cs, hc, hname⟩ := exists_key_eq name
  rw [Writer.assignment, hname]
  exact ⟨c, _, hc, rfl⟩

theorem readLine_assignment {d d' : Draft} {name text : String}
    (h : d.assign [name] (.string text) = some d') (rest : List Char) :
    readLine d (Writer.assignment name text ++ rest) = some (d', '\n' :: rest) := by
  have hread := readAssignment_assignment h rest
  obtain ⟨c, cs, hc, heq⟩ := exists_assignment_eq name text rest
  have hcomment : c ≠ '#' := hc.ne (by decide)
  have hbreak : c ≠ '\n' := hc.ne (by decide)
  have hreturn : c ≠ '\r' := hc.ne (by decide)
  have hbracket : c ≠ '[' := hc.ne (by decide)
  rw [heq] at hread ⊢
  rw [readLine]
  · simp [hcomment, hbreak, hreturn, hread]
  · exact fun _ he => absurd he hbracket
  · exact fun he => absurd he hbracket

/-! ## Documents -/

/-- Reading the text leads from one draft to another, whatever follows it. -/
def Reads (d : Draft) (cs : List Char) (d' : Draft) : Prop :=
  ∃ n ≤ cs.length, ∀ fuel rest, readLines (fuel + n) d (cs ++ rest) = readLines fuel d' rest

theorem Reads.nil (d : Draft) : Reads d [] d := ⟨0, Nat.le_refl 0, fun _ _ => rfl⟩

theorem Reads.eq_of_nil {d d' : Draft} (h : Reads d [] d') : d = d' := by
  obtain ⟨n, hn, h⟩ := h
  have hn : n = 0 := Nat.le_zero.1 hn
  subst hn
  exact Option.some.inj (h 1 [])

theorem Reads.trans {d d' d'' : Draft} {as bs : List Char} (h : Reads d as d')
    (h' : Reads d' bs d'') : Reads d (as ++ bs) d'' := by
  obtain ⟨m, hm, h⟩ := h
  obtain ⟨n, hn, h'⟩ := h'
  refine ⟨n + m, by rw [List.length_append]; omega, fun fuel rest => ?_⟩
  rw [List.append_assoc, ← Nat.add_assoc, h, h']

/-- A line is read in one step. -/
theorem reads_of_readLine {d d' : Draft} {line : List Char} {c : Char} {cs : List Char}
    (hc : isSpace c = false) (hline : line = c :: cs)
    (h : ∀ rest, readLine d (line ++ rest) = some (d', '\n' :: rest)) : Reads d line d' := by
  refine ⟨1, by rw [hline, List.length_cons]; omega, fun fuel rest => ?_⟩
  have hread := h rest
  rw [hline, List.cons_append] at hread ⊢
  rw [readLines, skipSpaces, List.dropWhile_cons_of_neg (by simp [hc])]
  simp only [Option.bind_eq_bind, hread, Option.bind_some]
  rfl

theorem reads_blank (d : Draft) : Reads d ['\n'] d :=
  reads_of_readLine (by decide) rfl fun _ => rfl

theorem reads_header {d d' : Draft} {path : List String} (hne : path ≠ [])
    (hlen : path.length ≤ maxDepth) (h : d.header false path = some d') :
    Reads d (Writer.header path) d' :=
  reads_of_readLine (c := '[') (by decide) rfl (readLine_header hne hlen h)

theorem reads_assignment {d d' : Draft} {name text : String}
    (h : d.assign [name] (.string text) = some d') : Reads d (Writer.assignment name text) d' := by
  obtain ⟨c, cs, hc, heq⟩ := exists_assignment_eq name text []
  rw [List.append_nil] at heq
  exact reads_of_readLine hc.isSpace_eq heq (readLine_assignment h)

/-- Drafts that the blocks of a document lead through, one by one. -/
inductive ReadsAll : Draft → List (List Char) → Draft → Prop where
  | nil (d : Draft) : ReadsAll d [] d
  | cons {d d' d'' : Draft} {block : List Char} {blocks : List (List Char)} :
      Reads d block d' → ReadsAll d' blocks d'' → ReadsAll d (block :: blocks) d''

/-- Blocks are read one after another, though empty ones are not written. -/
theorem reads_document {d d' : Draft} {blocks : List (List Char)} (h : ReadsAll d blocks d') :
    Reads d (Writer.document blocks) d' := by
  induction h with
  | nil d => exact .nil d
  | @cons d d' d'' block blocks hblock _ ih =>
    cases block with
    | nil =>
      rw [hblock.eq_of_nil]
      exact ih
    | cons c cs =>
      unfold Writer.document at ih ⊢
      rw [List.filter_cons_of_pos rfl]
      generalize blocks.filter (!·.isEmpty) = written at ih
      cases written with
      | nil =>
        rw [List.intercalate_singleton]
        rw [← (ih : Reads d' [] d'').eq_of_nil]
        exact hblock
      | cons next written =>
        rw [List.intercalate_cons_cons]
        exact (hblock.trans (reads_blank d')).trans ih

theorem readLines_of_reads {d d' : Draft} {cs : List Char} (h : Reads d cs d') :
    readLines (cs.length + 1) d cs = some d' := by
  obtain ⟨n, hn, h⟩ := h
  have hread := h (cs.length - n + 1) []
  rw [List.append_nil, show cs.length - n + 1 + n = cs.length + 1 by omega] at hread
  exact hread

end Reader

theorem Table.read_of_reads {cs : List Char} {d : Reader.Draft}
    (h : Reader.Reads ⟨[], []⟩ cs d) :
    Table.read (String.ofList cs) = some (Tree.finishEntries d.root) := by
  have hread := Reader.readLines_of_reads h
  -- A byte order mark begins no line, so what has been read does not begin with one.
  have hmark : dropMark cs = cs := by
    unfold dropMark
    split
    · cases hread
    · rfl
  unfold Table.read
  rw [String.toList_ofList, hmark]
  dsimp only
  rw [hread]
  rfl

end FeatureMerge.Toml
