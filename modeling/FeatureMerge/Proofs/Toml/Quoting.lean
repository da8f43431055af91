import Mathlib.Data.List.Basic
import FeatureMerge.Toml.Writer

/-!
# Strings read back

A form writes a text between its quotes, and reading what stands behind the
opening quotes gives the text again (`read_write`). `Scans` describes what the
scan for the closing quotes takes whole: raw texts without long runs of quotes,
and escaped texts whatever they say. The form that is chosen for a value or a key
is always able to hold it.
-/

namespace FeatureMerge.Toml.Form

/-- Text that the scan takes whole: up to `n` quotes stand at its beginning, and no more than two
in a row within it. -/
inductive Scans (form : Form) : Nat → List Char → Prop where
  | nil (n : Nat) : Scans form n []
  | quote {n : Nat} {cs : List Char} : form.isMultiline = true → Scans form n cs →
      Scans form (n + 1) (form.quote :: cs)
  | plain {n : Nat} {c : Char} {cs : List Char} : c ≠ form.quote →
      (form.isBasic = true → c ≠ '\\') →
      (isTextChar c = true ∨ form.isMultiline = true ∧ c = '\n') → Scans form 2 cs →
      Scans form n (c :: cs)
  | escape {n : Nat} {c : Char} {cs : List Char} : form.isBasic = true → isTextChar c = true →
      Scans form 2 cs → Scans form n ('\\' :: c :: cs)

/-! ## The closing quotes -/

theorem quote_ne_backslash (form : Form) : form.quote ≠ '\\' := by
  unfold quote
  split <;> decide

theorem isTextChar_quote (form : Form) : isTextChar form.quote = true := by
  unfold quote
  split <;> decide

theorem close?_eq_none {form : Form} {k : Nat} {c : Char} (cs : List Char) (hk : k ≤ 2)
    (hm : form.isMultiline = true ∨ k = 0) (hc : c ≠ form.quote) :
    form.close? (List.replicate k form.quote ++ c :: cs) = none := by
  have hc' : (form.quote == c) = false := beq_eq_false_iff_ne.2 (Ne.symm hc)
  unfold close?
  cases hml : form.isMultiline with
  | false =>
    have h0 : k = 0 := hm.resolve_left (by simp [hml])
    subst h0
    simp [List.isPrefixOf?, hc']
  | true =>
    obtain rfl | rfl | rfl : k = 0 ∨ k = 1 ∨ k = 2 := by omega
    · simp [List.isPrefixOf?, hc']
    · simp [List.isPrefixOf?, hc']
    · simp [List.isPrefixOf?, List.replicate_succ, hc']

theorem close?_delimiter {form : Form} {k : Nat} {rest : List Char} (hk : k ≤ 2)
    (hm : form.isMultiline = true ∨ k = 0) (hr : rest.head? ≠ some form.quote) :
    form.close? (List.replicate k form.quote ++ (form.delimiter ++ rest)) =
      some (List.replicate k form.quote, rest) := by
  have hq : ∀ start, (form.quote :: start).isPrefixOf? rest = none := by
    intro start
    cases rest with
    | nil => rfl
    | cons c rest =>
      have hc : form.quote ≠ c := fun he => hr (by rw [he]; rfl)
      simp [List.isPrefixOf?, hc]
  unfold close? delimiter
  cases hml : form.isMultiline with
  | false =>
    have h0 : k = 0 := hm.resolve_left (by simp [hml])
    subst h0
    simp [List.isPrefixOf?]
  | true =>
    obtain rfl | rfl | rfl : k = 0 ∨ k = 1 ∨ k = 2 := by omega
    · simp [List.isPrefixOf?, hq]
    · simp [List.isPrefixOf?, hq]
    · simp [List.isPrefixOf?, List.replicate_succ]

/-! ## The scan -/

/-- Such a text consists of a few quotes only, or begins with a few and something else. -/
theorem Scans.shape {form : Form} {n : Nat} {cs : List Char} (h : Scans form n cs) :
    ∃ k ≤ n, (form.isMultiline = true ∨ k = 0) ∧
      (cs = List.replicate k form.quote ∨
        ∃ c tail, c ≠ form.quote ∧ cs = List.replicate k form.quote ++ c :: tail) := by
  induction h with
  | nil n => exact ⟨0, by omega, .inr rfl, .inl rfl⟩
  | quote hm _ ih =>
    obtain ⟨k, hk, -, hcs⟩ := ih
    refine ⟨k + 1, by omega, .inl hm, ?_⟩
    rcases hcs with rfl | ⟨c, tail, hc, rfl⟩
    · exact .inl rfl
    · exact .inr ⟨c, tail, hc, rfl⟩
  | plain hc _ _ _ _ => exact ⟨0, by omega, .inr rfl, .inr ⟨_, _, hc, rfl⟩⟩
  | escape _ _ _ _ =>
    exact ⟨0, by omega, .inr rfl, .inr ⟨'\\', _, (quote_ne_backslash form).symm, rfl⟩⟩

theorem Scans.admits {form : Form} {c : Char} (next : List Char)
    (h : isTextChar c = true ∨ form.isMultiline = true ∧ c = '\n') :
    form.admits c next = true := by
  unfold Form.admits
  rcases h with h | ⟨hm, rfl⟩
  · simp [h]
  · simp [hm]

/-- Taking one character, or an escape, leaves the end where it is. -/
theorem scan_cons {form : Form} {c : Char} {cs s after : List Char}
    (hclose : form.close? (c :: cs) = none) (hadm : form.admits c cs = true)
    (hesc : form.isBasic = true → c ≠ '\\') (h : form.scan cs = some (s, after)) :
    form.scan (c :: cs) = some (c :: s, after) := by
  have hb : (form.isBasic && decide (c = '\\')) = false := by
    cases hi : form.isBasic with
    | false => rfl
    | true => simp [hesc hi]
  rw [scan.eq_def]
  simp [hclose, hadm, hb, h]

theorem scan_of_close? {form : Form} {cs : List Char} {cut : List Char × List Char}
    (h : form.close? cs = some cut) : form.scan cs = some cut := by
  cases cs with
  | nil =>
    unfold close? at h
    cases hm : form.isMultiline <;> simp [hm, List.isPrefixOf?] at h
  | cons c cs =>
    rw [scan.eq_def]
    simp [h]

theorem scan_append {form : Form} {n : Nat} {body rest : List Char} (h : Scans form n body)
    (hn : n ≤ 2) (hr : rest.head? ≠ some form.quote) :
    form.scan (body ++ (form.delimiter ++ rest)) = some (body, rest) := by
  -- A body of quotes only ends where it begins; in any other the first character is taken.
  obtain ⟨k, hk, hm, rfl | ⟨d, tail, hd, hbody⟩⟩ := h.shape
  · exact scan_of_close? (close?_delimiter (by omega) hm hr)
  have hclose : form.close? (body ++ (form.delimiter ++ rest)) = none := by
    rw [hbody, List.append_assoc, List.cons_append]
    exact close?_eq_none _ (by omega) hm hd
  cases h with
  | nil => simp at hbody
  | quote hml h =>
    exact scan_cons hclose (Scans.admits _ (.inl (isTextChar_quote form)))
      (fun _ => quote_ne_backslash form) (scan_append h (by omega) hr)
  | plain hc hesc hadm h =>
    exact scan_cons hclose (Scans.admits _ hadm) hesc (scan_append h (by omega) hr)
  | @escape n e cs hb he h =>
    have ih : form.scan (cs ++ (form.delimiter ++ rest)) = some (cs, rest) :=
      scan_append h (by omega) hr
    have hadm : form.admits '\\' (e :: (cs ++ (form.delimiter ++ rest))) = true :=
      Scans.admits _ (.inl (by decide))
    have hadm' : form.admits e (cs ++ (form.delimiter ++ rest)) = true :=
      Scans.admits _ (.inl he)
    rw [List.cons_append, List.cons_append] at hclose ⊢
    rw [scan.eq_def]
    simp [hclose, hadm, hadm', hb, ih]

/-! ## Raw texts -/

theorem scans_of_hasShortRuns {form : Form} {s : List Char} (hb : form.isBasic = false)
    (hm : form.isMultiline = true) (hs : ∀ c ∈ s, isTextChar c = true ∨ c = '\n') {run : Nat}
    (hrun : run ≤ 2) (h : Writer.hasShortRuns form.quote run s = true) :
    Scans form (2 - run) s := by
  induction s generalizing run with
  | nil => exact .nil _
  | cons c s ih =>
    have hc := hs c List.mem_cons_self
    have hs' := fun d hd => hs d (List.mem_cons_of_mem _ hd)
    rw [Writer.hasShortRuns] at h
    by_cases hq : c = form.quote
    · rw [if_pos hq, Bool.and_eq_true, decide_eq_true_eq] at h
      rw [hq, show 2 - run = 2 - (run + 1) + 1 by omega]
      exact .quote hm (ih hs' (by omega) h.2)
    · rw [if_neg hq] at h
      refine .plain hq (by simp [hb]) ?_ (ih hs' (by omega) h)
      exact hc.imp_right fun he => ⟨hm, he⟩

theorem scans_of_not_mem_quote {form : Form} {s : List Char} (hb : form.isBasic = false)
    (hs : ∀ c ∈ s, isTextChar c = true) (hq : form.quote ∉ s) (n : Nat) : Scans form n s := by
  induction s generalizing n with
  | nil => exact .nil _
  | cons c s ih =>
    have hc : c ≠ form.quote := fun he => hq (he ▸ List.mem_cons_self)
    refine .plain hc (by simp [hb]) (.inl (hs c List.mem_cons_self)) ?_
    exact ih (fun d hd => hs d (List.mem_cons_of_mem _ hd))
      (fun hm => hq (List.mem_cons_of_mem _ hm)) 2

/-! ## Escaped texts -/

/-- How a character is written: by a short escape, by its number, or as it is. -/
theorem escape_cases (c : Char) :
    (∃ x, escape c = ['\\', x] ∧ unescape? x = some c) ∨
    (c.toNat < 0x80 ∧ escape c = numberedEscape c) ∨
    (escape c = [c] ∧ c ≠ '"' ∧ c ≠ '\\' ∧ isTextChar c = true) := by
  unfold escape
  split
  · rename_i h
    exact .inl ⟨'b', rfl, by rw [h]; rfl⟩
  split
  · rename_i h
    exact .inl ⟨'t', rfl, by rw [h]; rfl⟩
  split
  · rename_i h
    exact .inl ⟨'n', rfl, by rw [h]; rfl⟩
  split
  · rename_i h
    exact .inl ⟨'f', rfl, by rw [h]; rfl⟩
  split
  · rename_i h
    exact .inl ⟨'r', rfl, by rw [h]; rfl⟩
  split
  · rename_i h
    exact .inl ⟨'"', rfl, by rw [h]; rfl⟩
  split
  · rename_i h
    exact .inl ⟨'\\', rfl, by rw [h]; rfl⟩
  split
  · rename_i h
    simp only [Bool.or_eq_true, decide_eq_true_eq] at h
    exact .inr (.inl ⟨by omega, rfl⟩)
  · rename_i hq hs hctl
    simp only [Bool.or_eq_true, decide_eq_true_eq] at hctl
    refine .inr (.inr ⟨rfl, hq, hs, ?_⟩)
    unfold isTextChar
    simp only [Bool.or_eq_true, Bool.and_eq_true, decide_eq_true_eq]
    omega

theorem isTextChar_of_unescape? {x c : Char} (h : unescape? x = some c) : isTextChar x = true := by
  unfold unescape? at h
  split at h
  case h_9 => cases h
  all_goals rfl

theorem resolve_short {x c : Char} (h : unescape? x = some c) (rest : List Char) :
    resolve .outside ('\\' :: x :: rest) = (resolve .outside rest).map (c :: ·) := by
  have hne : ∀ y, unescape? y = none → x ≠ y := by
    rintro y hy rfl
    rw [hy] at h
    cases h
  rw [resolve]
  · simp only [hne ' ' rfl, hne '\t' rfl, hne '\r' rfl, hne '\n' rfl, h]
    cases resolve .outside rest <;> rfl
  · exact fun _ _ _ he => absurd he (hne 'x' rfl)
  · exact fun _ _ _ _ _ he => absurd he (hne 'u' rfl)
  · exact fun _ _ _ _ _ _ _ _ _ he => absurd he (hne 'U' rfl)
  · exact nofun

theorem numbered?_hexDigit {c : Char} (h : c.toNat < 0x80) :
    numbered? ['0', '0', hexDigit (c.toNat / 16), hexDigit c.toNat] = some c := by
  have hall : ∀ n < 0x80, numbered? ['0', '0', hexDigit (n / 16), hexDigit n] =
      some (Char.ofNat n) := by decide
  rw [hall c.toNat h, Char.ofNat_toNat]

theorem resolve_numbered {c : Char} (h : c.toNat < 0x80) (rest : List Char) :
    resolve .outside (numberedEscape c ++ rest) = (resolve .outside rest).map (c :: ·) := by
  show resolve .outside ('\\' :: 'u' :: '0' :: '0' :: hexDigit (c.toNat / 16) ::
    hexDigit c.toNat :: rest) = _
  rw [resolve, numbered?_hexDigit h]
  · cases resolve .outside rest <;> rfl
  · exact nofun

theorem resolve_plain {c : Char} (h : c ≠ '\\') (rest : List Char) :
    resolve .outside (c :: rest) = (resolve .outside rest).map (c :: ·) := by
  rw [resolve]
  · cases resolve .outside rest <;> rfl
  · exact fun _ _ _ he => absurd he h
  · exact fun _ _ _ _ _ he => absurd he h
  · exact fun _ _ _ _ _ _ _ _ _ he => absurd he h
  · exact fun _ _ he => absurd he h

theorem resolve_escape (c : Char) (rest : List Char) :
    resolve .outside (escape c ++ rest) = (resolve .outside rest).map (c :: ·) := by
  rcases escape_cases c with ⟨x, he, hx⟩ | ⟨hc, he⟩ | ⟨he, -, hs, -⟩
  · rw [he]
    exact resolve_short hx rest
  · rw [he]
    exact resolve_numbered hc rest
  · rw [he]
    exact resolve_plain hs rest

theorem resolve_nil : resolve .outside [] = some [] := by
  rw [resolve]
  exact nofun

/-- Escapes are resolved to the text, however many quotes stand before it. -/
theorem resolve_escapeAll (form : Form) (quotes : Nat) (s : List Char) :
    resolve .outside (escapeAll form quotes s) = some s := by
  induction s generalizing quotes with
  | nil => exact resolve_nil
  | cons c s ih =>
    rw [escapeAll]
    split
    · rename_i h
      simp only [Bool.and_eq_true, decide_eq_true_eq] at h
      rw [resolve_plain (by rw [h.2]; decide), ih]
      rfl
    split
    · rename_i h
      simp only [Bool.and_eq_true, decide_eq_true_eq] at h
      rw [resolve_plain (by rw [h.1.2]; decide), ih]
      rfl
    · rw [resolve_escape, ih]
      rfl

theorem isTextChar_hexDigit : ∀ n < 0x80, isTextChar (hexDigit n) = true := by decide

theorem isTextChar_of_mem_escape {c d : Char} (h : d ∈ escape c) : isTextChar d = true := by
  rcases escape_cases c with ⟨x, he, hx⟩ | ⟨hc, he⟩ | ⟨he, -, -, ht⟩
  · rw [he] at h
    simp only [List.mem_cons, List.not_mem_nil, or_false] at h
    rcases h with rfl | rfl
    · decide
    · exact isTextChar_of_unescape? hx
  · rw [he] at h
    simp only [numberedEscape, List.mem_cons, List.not_mem_nil, or_false] at h
    rcases h with rfl | rfl | rfl | rfl | rfl | rfl
    · decide
    · decide
    · decide
    · decide
    · exact isTextChar_hexDigit _ (by omega)
    · exact isTextChar_hexDigit _ hc
  · rw [he, List.mem_singleton] at h
    rwa [h]

theorem not_mem_escapeAll {form : Form} {quotes : Nat} {s : List Char} (h : '\n' ∉ s) :
    '\n' ∉ escapeAll form quotes s := by
  induction s generalizing quotes with
  | nil => exact h
  | cons c s ih =>
    have hc : '\n' ≠ c := fun he => h (he ▸ List.mem_cons_self)
    have hs : '\n' ∉ s := fun hm => h (List.mem_cons_of_mem _ hm)
    rw [escapeAll]
    split
    · simp [hc, ih hs]
    split
    · simp [hc, ih hs]
    · intro hm
      rcases List.mem_append.1 hm with hm | hm
      · exact absurd (isTextChar_of_mem_escape hm) (by decide)
      · exact ih hs hm

theorem quote_of_isBasic {form : Form} (h : form.isBasic = true) : form.quote = '"' := by
  simp [quote, h]

theorem scans_escape {form : Form} (hb : form.isBasic = true) {n : Nat} (c : Char)
    {rest : List Char} (h : Scans form 2 rest) : Scans form n (escape c ++ rest) := by
  rcases escape_cases c with ⟨x, he, hx⟩ | ⟨hc, he⟩ | ⟨he, hq, hs, ht⟩
  · rw [he]
    exact .escape hb (isTextChar_of_unescape? hx) h
  · have hdigit : ∀ n < 0x80, hexDigit n ≠ '"' ∧ hexDigit n ≠ '\\' := by decide
    have hplain : ∀ n < 0x80, ∀ cs, Scans form 2 cs → Scans form 2 (hexDigit n :: cs) := by
      intro n hn cs hcs
      obtain ⟨hq, hs⟩ := hdigit n hn
      have htext := isTextChar_hexDigit n hn
      exact .plain (by rwa [quote_of_isBasic hb]) (fun _ => hs) (.inl htext) hcs
    rw [he]
    refine .escape hb (by decide) ?_
    exact hplain 0 (by decide) _ <| hplain 0 (by decide) _ <|
      hplain _ (by omega) _ <| hplain _ hc _ h
  · rw [he]
    exact .plain (by rwa [quote_of_isBasic hb]) (fun _ => hs) (.inl ht) h

theorem scans_escapeAll {form : Form} (hb : form.isBasic = true) {quotes : Nat} (hq : quotes ≤ 2)
    (s : List Char) : Scans form (2 - quotes) (escapeAll form quotes s) := by
  induction s generalizing quotes with
  | nil => exact .nil _
  | cons c s ih =>
    rw [escapeAll]
    split
    · rename_i h
      simp only [Bool.and_eq_true, decide_eq_true_eq] at h
      refine .plain ?_ ?_ (.inr ⟨h.1, h.2⟩) (ih (Nat.zero_le 2))
      · rw [h.2, quote_of_isBasic hb]; decide
      · rw [h.2]; exact fun _ => by decide
    split
    · rename_i h
      simp only [Bool.and_eq_true, decide_eq_true_eq] at h
      rw [h.1.2, ← quote_of_isBasic hb, show 2 - quotes = 2 - (quotes + 1) + 1 by omega]
      exact .quote h.1.1 (ih (by omega))
    · exact scans_escape hb c (ih (Nat.zero_le 2))

/-! ## Whole strings -/

/-- A text that the form can hold. With double quotes that is any text. -/
def Holds (form : Form) (s : List Char) : Prop := form.isBasic = false → Scans form 2 s

/-- What is written between the quotes, the first line break apart. -/
def body (form : Form) (s : List Char) : List Char :=
  if form.isBasic then escapeAll form 0 s else s

theorem scans_body {form : Form} {s : List Char} (h : form.Holds s) :
    Scans form 2 (form.body s) := by
  unfold body
  cases hb : form.isBasic with
  | true => exact scans_escapeAll hb (Nat.zero_le 2) s
  | false => exact h hb

theorem not_mem_body {form : Form} {s : List Char} (h : '\n' ∉ s) : '\n' ∉ form.body s := by
  unfold body
  split
  · exact not_mem_escapeAll h
  · exact h

theorem dropFirstBreak_of_not_mem {s : List Char} (h : '\n' ∉ s) : dropFirstBreak s = s := by
  unfold dropFirstBreak
  split
  · simp at h
  · simp at h
  · rfl

/-- Reading what stands behind the opening quotes gives the text, and leaves what follows. -/
theorem read_write {form : Form} {s rest : List Char} (h : form.Holds s)
    (hr : rest.head? ≠ some form.quote) :
    ∃ written, form.write s = form.delimiter ++ written ∧
      form.read (written ++ rest) = some (s, rest) := by
  let start := if form.isMultiline && s.contains '\n' then ['\n'] else []
  have hscans : Scans form 2 (start ++ form.body s) := by
    show Scans form 2 ((if form.isMultiline && s.contains '\n' then ['\n'] else []) ++ form.body s)
    split
    · rename_i hm
      rw [Bool.and_eq_true] at hm
      refine .plain ?_ (fun _ => by decide) (.inr ⟨hm.1, rfl⟩) (scans_body h)
      unfold quote
      split <;> decide
    · exact scans_body h
  have hdrop : (if form.isMultiline then dropFirstBreak (start ++ form.body s)
      else start ++ form.body s) = form.body s := by
    cases hm : form.isMultiline with
    | false => simp [start, hm]
    | true =>
      by_cases hn : '\n' ∈ s
      · simp [start, hm, hn, dropFirstBreak]
      · simp [start, hm, hn, dropFirstBreak_of_not_mem (not_mem_body hn)]
  refine ⟨start ++ form.body s ++ form.delimiter, ?_, ?_⟩
  · simp [write, start, body]
  · rw [List.append_assoc, read, scan_append hscans (Nat.le_refl 2) hr]
    simp only [Option.bind_eq_bind, Option.bind_some, hdrop]
    unfold body
    cases form.isBasic with
    | true =>
      simp only [if_true, resolve_escapeAll]
      rfl
    | false => rfl

end FeatureMerge.Toml.Form

/-! ## The chosen forms -/

namespace FeatureMerge.Toml.Writer

/-- A tab, or no control character. -/
theorem isTextChar_of_clean {c : Char} (h : c = '\t' ∨ isControl c = false) :
    isTextChar c = true := by
  rcases h with rfl | h
  · rfl
  unfold isControl at h
  unfold isTextChar
  simp only [Bool.or_eq_false_iff, decide_eq_false_iff_not] at h
  simp only [Bool.or_eq_true, Bool.and_eq_true, decide_eq_true_eq]
  omega

theorem holds_valueForm (s : List Char) : (valueForm s).Holds s := by
  have htext : (s.all fun c => c = '\t' || c = '\n' || !isControl c) = true →
      ∀ c ∈ s, isTextChar c = true ∨ c = '\n' := by
    intro h c hc
    have hc := List.all_eq_true.1 h c hc
    simp only [Bool.or_eq_true, decide_eq_true_eq, Bool.not_eq_true'] at hc
    rcases hc with (hc | hc) | hc
    · exact .inl (isTextChar_of_clean (.inl hc))
    · exact .inr hc
    · exact .inl (isTextChar_of_clean (.inr hc))
  unfold valueForm
  dsimp only
  split
  · exact nofun
  split
  · rename_i h
    simp only [Bool.and_eq_true, decide_eq_true_eq] at h
    obtain ⟨⟨hclean, hline⟩, hq⟩ := h
    have hs : ∀ c ∈ s, isTextChar c = true := fun c hc =>
      (htext hclean c hc).resolve_right fun he => hline (he ▸ hc)
    exact fun hb => Form.scans_of_not_mem_quote hb hs hq 2
  split
  · exact nofun
  split
  · rename_i h
    rw [Bool.and_eq_true] at h
    exact fun hb => Form.scans_of_hasShortRuns hb rfl (htext h.1) (Nat.zero_le 2) h.2
  split
  · exact nofun
  · exact nofun

theorem holds_keyForm (s : List Char) : (keyForm s).Holds s := by
  unfold keyForm
  dsimp only
  split
  · exact nofun
  split
  · rename_i h
    simp only [Bool.and_eq_true, decide_eq_true_eq] at h
    have hs : ∀ c ∈ s, isTextChar c = true := by
      intro c hc
      have hc := List.all_eq_true.1 h.1 c hc
      simp only [Bool.or_eq_true, decide_eq_true_eq, Bool.not_eq_true'] at hc
      exact isTextChar_of_clean hc
    exact fun hb => Form.scans_of_not_mem_quote hb hs h.2 2
  · exact nofun

end FeatureMerge.Toml.Writer
