import FeatureMerge.Proofs.Text.Bytes
import FeatureMerge.Proofs.Version.Numerals

/-!
# How versions are written

A version is spelled as numerals with dots between them and a suffix, behind a `v` or not.
Reading the text recovers these parts (`Spelling.ofVersion_text`), so texts are compared by them
(`compareVersions_text`): by the numbers, then the class of the suffix, then its own text.
-/

namespace FeatureMerge.Version

open Text (bytes)

/-- What stands behind the numerals of a version. -/
inductive Suffix where
  | bare
  | build (b : String)
  | prerelease (p : String) (b : Option String) (h : '+' ∉ p.toList)
  | dotted (s : String) (h : NoDigit s.toList)
  | word (s : String) (h : ∃ c ∈ s.toList.head?, c.isDigit = false ∧ c ∉ ['.', '+', '-'])

namespace Suffix

def text : Suffix → String
  | bare => ""
  | build b => "+" ++ b
  | prerelease p none _ => "-" ++ p
  | prerelease p (some b) _ => "-" ++ p ++ "+" ++ b
  | dotted s _ => "." ++ s
  | word s _ => s

/-- The place of the suffix's class: pre-releases, releases, qualified versions. -/
def rank : Suffix → Nat
  | prerelease .. => 0
  | bare | build _ => 1
  | dotted .. | word .. => 2

def qualifier? : Suffix → Option String
  | dotted s _ | word s _ => some s
  | _ => none

/-- Regular pre-releases stand below all others, which are in byte order. -/
def comparePrereleases (p q : String) : Ordering :=
  match Prerelease.ofText? p, Prerelease.ofText? q with
  | some p, some q => compare p q
  | some _, none => .lt
  | none, some _ => .gt
  | none, none => compare (bytes p) (bytes q)

/-- The class decides first. Build texts do not count, and releases are all equal. -/
instance : Ord Suffix where
  compare a b := (compare a.rank b.rank).then <|
    match a, b with
    | prerelease p _ _, prerelease q _ _ => comparePrereleases p q
    | a, b => compare (a.qualifier?.map bytes) (b.qualifier?.map bytes)

/-! ## Suffixes are read as qualifiers -/

theorem noDigit (q : Suffix) : NoDigit q.text.toList := by
  cases q with
  | bare => simp [text, NoDigit]
  | build b => simp [text, NoDigit]
  | prerelease p b h => cases b <;> simp [text, NoDigit]
  | dotted s h => simp [text, NoDigit]
  | word s h =>
    obtain ⟨c, hc, hd, -⟩ := h
    simpa [text, NoDigit, Option.mem_def.1 hc] using hd

theorem nextNumber?_text (q : Suffix) : Key.nextNumber? q.text.toList = none := by
  cases q with
  | bare => rfl
  | build b => simp [text, Key.nextNumber?_of_ne]
  | prerelease p b h => cases b <;> simp [text, Key.nextNumber?_of_ne]
  | dotted s h => simpa [text] using Key.nextNumber?_of_noDigit h
  | word s h =>
    obtain ⟨c, hc, -, hplain⟩ := h
    obtain ⟨cs, hcs⟩ := List.head?_eq_some_iff.1 hc
    rw [text, hcs, Key.nextNumber?_of_ne fun h => hplain (h ▸ List.mem_cons_self)]

/-- What the suffix is read as. -/
def qualifier : Suffix → Qualifier
  | bare | build _ => .release
  | prerelease p _ _ => (Prerelease.ofText? p).elim (.irregular p) .prerelease
  | dotted s _ | word s _ => .qualified s

theorem ofPrerelease_append {p : String} (h : '+' ∉ p.toList) {cs : List Char}
    (hcs : cs.takeWhile (· ≠ '+') = []) : Qualifier.ofPrerelease (p.toList ++ cs) =
      (Prerelease.ofText? p).elim (.irregular p) .prerelease := by
  have hp : ∀ c ∈ p.toList, decide (c ≠ '+') := fun c hc =>
    decide_eq_true fun hplus => h (hplus ▸ hc)
  rw [Qualifier.ofPrerelease, List.takeWhile_append_of_pos hp, hcs, List.append_nil,
    String.ofList_toList]
  cases Prerelease.ofText? p <;> rfl

theorem ofText_text (q : Suffix) : Qualifier.ofText q.text.toList = q.qualifier := by
  cases q with
  | bare => rfl
  | build b => simp [text, Qualifier.ofText, qualifier]
  | prerelease p b h =>
    cases b with
    | none =>
      have hb : ([] : List Char).takeWhile (· ≠ '+') = [] := rfl
      simpa [text, Qualifier.ofText, qualifier] using ofPrerelease_append h hb
    | some b =>
      have hb : ('+' :: b.toList).takeWhile (· ≠ '+') = [] := rfl
      simpa [text, Qualifier.ofText, qualifier] using ofPrerelease_append h hb
  | dotted s h => simp [text, Qualifier.ofText, qualifier]
  | word s h =>
    obtain ⟨c, hc, -, hplain⟩ := h
    obtain ⟨cs, hcs⟩ := List.head?_eq_some_iff.1 hc
    show Qualifier.ofText s.toList = .qualified s
    rw [hcs, Qualifier.ofText_of_not_mem hplain, ← hcs, String.ofList_toList]

theorem compare_prereleases (p q : String) :
    compare ((Prerelease.ofText? p).elim (Qualifier.irregular p) .prerelease)
        ((Prerelease.ofText? q).elim (Qualifier.irregular q) .prerelease) =
      comparePrereleases p q := by
  unfold comparePrereleases
  cases Prerelease.ofText? p with
  | none =>
    cases Prerelease.ofText? q with
    | none => exact (Text.compare_bytes p q).symm
    | some q => rfl
  | some p =>
    cases Prerelease.ofText? q with
    | none => rfl
    | some q => rfl

theorem compare_qualifier (a b : Suffix) : compare a.qualifier b.qualifier = compare a b := by
  cases a with
  | prerelease p x hp =>
    cases b with
    | prerelease q y hq => exact compare_prereleases p q
    | bare | build | dotted | word =>
      simp only [qualifier]
      cases Prerelease.ofText? p <;> rfl
  | bare | build =>
    cases b with
    | prerelease q y hq =>
      simp only [qualifier]
      cases Prerelease.ofText? q <;> rfl
    | bare | build | dotted | word => rfl
  | dotted s | word s =>
    cases b with
    | prerelease q y hq =>
      simp only [qualifier]
      cases Prerelease.ofText? q <;> rfl
    | bare | build => rfl
    | dotted t | word t => exact (Text.compare_bytes s t).symm

end Suffix

/-- A version with at least one numeral, all of them within 64 bits. -/
structure Spelling where
  v : Bool
  numerals : List Numeral
  ne_nil : numerals ≠ []
  fits : ∀ n ∈ numerals, n.value < 2 ^ 64
  suffix : Suffix

namespace Spelling

/-- What stands behind the `v`. -/
def body (a : Spelling) : List Char := Numeral.dotted a.numerals ++ a.suffix.text.toList

def text (a : Spelling) : String :=
  (if a.v then "v" else "") ++ String.ofList (Numeral.dotted a.numerals) ++ a.suffix.text

def values (a : Spelling) : List Nat := a.numerals.map Numeral.value

theorem toList_text (a : Spelling) :
    a.text.toList = if a.v then 'v' :: a.body else a.body := by
  cases h : a.v <;> simp [text, body, h]

theorem splitNumbers_body (a : Spelling) :
    Key.splitNumbers a.body = (a.values, a.suffix.text.toList) := by
  have hfits : ∀ n ∈ a.numerals, decide (n.value < 2 ^ 64) := fun n hn =>
    decide_eq_true (a.fits n hn)
  rw [body, Key.splitNumbers_dotted a.ne_nil a.suffix.noDigit a.suffix.nextNumber?_text,
    List.takeWhile_eq_self_iff.2 hfits, List.dropWhile_eq_nil_iff.2 hfits]
  rfl

theorem ofVersion_text (a : Spelling) :
    Key.ofVersion a.text = ⟨a.values, a.suffix.qualifier⟩ := by
  have h := a.toList_text
  cases hv : a.v with
  | true =>
    rw [hv, if_pos rfl] at h
    rw [Key.ofVersion_of_v h, a.splitNumbers_body, a.suffix.ofText_text]
  | false =>
    rw [hv, if_neg Bool.false_ne_true] at h
    have hhead : a.text.toList.head? ≠ some 'v' := h ▸ Numeral.head?_dotted_ne_v a.ne_nil _
    rw [Key.ofVersion_of_ne_v hhead, h, a.splitNumbers_body, a.suffix.ofText_text]

end Spelling

theorem compareVersions_text (a b : Spelling) :
    compareVersions a.text b.text =
      (compareFilled a.values b.values).then (compare a.suffix b.suffix) := by
  rw [compareVersions, a.ofVersion_text, b.ofVersion_text, ← comparePadded_eq_compareFilled,
    ← Suffix.compare_qualifier]
  rfl

/-- Zeros in front of a numeral and at the end do not count, so the suffixes decide. -/
theorem compareVersions_text_suffix :
    let a : Spelling :=
      { v := true
        numerals := [⟨['1'], by decide, by simp⟩, ⟨['0', '2'], by decide, by simp⟩]
        ne_nil := by decide
        fits := by decide
        suffix := .prerelease "alpha.1" (some "b-7") (by decide) }
    let b : Spelling :=
      { v := false
        numerals := [.ofNat 1, .ofNat 2, .ofNat 0]
        ne_nil := by decide
        fits := by decide
        suffix := .dotted "SNAPSHOT" (by simp [NoDigit]) }
    a.text = "v1.02-alpha.1+b-7" ∧ b.text = "1.2.0.SNAPSHOT" ∧
      compareVersions a.text b.text = .lt ∧ compareVersions b.text a.text = .gt := by
  intro a b
  exact ⟨by decide, by decide, (compareVersions_text a b).trans (by decide),
    (compareVersions_text b a).trans (by decide)⟩

end FeatureMerge.Version
