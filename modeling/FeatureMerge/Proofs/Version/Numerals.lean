import Mathlib.Algebra.Group.Nat.Defs
import Mathlib.Data.List.TakeWhile
import FeatureMerge.Proofs.Version.Order

/-!
# Versions made of numerals

The numbers of a version are read as long as they fit into 64 bits: `Key.splitNumbers_dotted`
says where numerals with dots between them are cut. So lists of numbers are compared as such
as far as they fit, and as texts from there on (`compareVersions_decimals`).
-/

namespace FeatureMerge

namespace Text

theorem digitValue?_of_isDigit {c : Char} (h : c.isDigit) :
    digitValue? c = some (c.toNat - '0'.toNat) := by
  rw [Char.isDigit_iff_toNat] at h
  have hrange : ('0' ≤ c && c ≤ '9') = true := by
    rw [Bool.and_eq_true, decide_eq_true_eq, decide_eq_true_eq]
    exact h
  rw [digitValue?, hrange]
  rfl

theorem foldl_digitValue? {digits : List Char} (h : ∀ c ∈ digits, c.isDigit) (n : Nat) :
    digits.foldl (fun n c => 10 * n + (digitValue? c).getD 0) n =
      Nat.ofDigitChars 10 digits n := by
  induction digits generalizing n with
  | nil => rfl
  | cons c digits ih =>
    rw [List.forall_mem_cons] at h
    rw [List.foldl_cons, digitValue?_of_isDigit h.1, Option.getD_some, Nat.ofDigitChars_cons]
    exact ih h.2 _

theorem valueOf_eq_ofDigitChars {digits : List Char} (h : ∀ c ∈ digits, c.isDigit) :
    valueOf 10 digits = Nat.ofDigitChars 10 digits 0 :=
  foldl_digitValue? h 0

end Text

namespace Version

/-- A run of digits. Zeros may lead. -/
structure Numeral where
  digits : List Char
  ne_nil : digits ≠ []
  isDigit : ∀ c ∈ digits, c.isDigit

namespace Numeral

def value (n : Numeral) : Nat := Nat.ofDigitChars 10 n.digits 0

/-- The decimal rendering. -/
def ofNat (n : Nat) : Numeral where
  digits := Nat.toDigits 10 n
  ne_nil := Nat.toDigits_ne_nil
  isDigit _ := Nat.isDigit_of_mem_toDigits (by decide) (by decide)

@[simp] theorem value_ofNat (n : Nat) : (ofNat n).value = n :=
  Nat.ofDigitChars_ten_toDigits

/-- Numerals with dots between them. -/
def dotted (ns : List Numeral) : List Char := ['.'].intercalate (ns.map digits)

@[simp] theorem dotted_singleton (n : Numeral) : dotted [n] = n.digits :=
  List.intercalate_singleton

@[simp] theorem dotted_cons_cons (n m : Numeral) (ns : List Numeral) :
    dotted (n :: m :: ns) = n.digits ++ '.' :: dotted (m :: ns) := by
  simp [dotted]

theorem exists_digits_eq (n : Numeral) : ∃ c cs, n.digits = c :: cs ∧ c.isDigit := by
  obtain ⟨c, cs, h⟩ := List.exists_cons_of_ne_nil n.ne_nil
  exact ⟨c, cs, h, n.isDigit c (h ▸ List.mem_cons_self)⟩

theorem exists_dotted_eq (n : Numeral) (ns : List Numeral) :
    ∃ c cs, dotted (n :: ns) = c :: cs ∧ c.isDigit := by
  obtain ⟨c, cs, h, hc⟩ := n.exists_digits_eq
  cases ns with
  | nil => exact ⟨c, cs, by rw [dotted_singleton, h], hc⟩
  | cons m ns => exact ⟨c, _, by rw [dotted_cons_cons, h, List.cons_append], hc⟩

theorem head?_dotted_ne_v {ns : List Numeral} (hne : ns ≠ []) (rest : List Char) :
    (dotted ns ++ rest).head? ≠ some 'v' := by
  obtain ⟨n, ns, rfl⟩ := List.exists_cons_of_ne_nil hne
  obtain ⟨c, cs, hcs, hc⟩ := exists_dotted_eq n ns
  rw [hcs, List.cons_append, List.head?_cons]
  rintro ⟨⟩
  cases hc

end Numeral

/-- The text does not begin with a digit. -/
def NoDigit (cs : List Char) : Prop := ∀ c ∈ cs.head?, c.isDigit = false

theorem noDigit_cons {c : Char} {cs : List Char} : NoDigit (c :: cs) ↔ c.isDigit = false := by
  simp [NoDigit]

namespace Key

open Numeral (dotted dotted_singleton dotted_cons_cons exists_dotted_eq)

variable {n : Numeral} {rest : List Char}

/-! ## Numerals -/

theorem takeWhile_isDigit (n : Numeral) (h : NoDigit rest) :
    (n.digits ++ rest).takeWhile Char.isDigit = n.digits := by
  rw [List.takeWhile_append_of_pos n.isDigit]
  cases rest with
  | nil => simp
  | cons c cs => rw [List.takeWhile_cons_of_neg (by simp [noDigit_cons.1 h]), List.append_nil]

theorem dropWhile_isDigit (n : Numeral) (h : NoDigit rest) :
    (n.digits ++ rest).dropWhile Char.isDigit = rest := by
  rw [List.dropWhile_append_of_pos n.isDigit]
  cases rest with
  | nil => rfl
  | cons c cs => rw [List.dropWhile_cons_of_neg (by simp [noDigit_cons.1 h])]

theorem leadingNumber?_numeral (n : Numeral) (h : NoDigit rest) :
    leadingNumber? (n.digits ++ rest) = if n.value < 2 ^ 64 then some n.value else none := by
  have hempty : n.digits.isEmpty = false := List.isEmpty_eq_false_iff.2 n.ne_nil
  unfold leadingNumber?
  simp only [takeWhile_isDigit n h, hempty, Text.valueOf_eq_ofDigitChars n.isDigit]
  rfl

/-- A numeral that does not fit is left to the qualifier, with all that follows. -/
theorem splitNumbers_of_large (hn : ¬ n.value < 2 ^ 64) (h : NoDigit rest) :
    splitNumbers (n.digits ++ rest) = ([], n.digits ++ rest) := by
  rw [splitNumbers, leadingNumber?_numeral n h, if_neg hn]

theorem splitNumbers_of_fits (hn : n.value < 2 ^ 64) (h : NoDigit rest) :
    splitNumbers (n.digits ++ rest) =
      match nextNumber? rest with
      | none => ([n.value], rest)
      | some next => (n.value :: (splitNumbers next).1, (splitNumbers next).2) := by
  rw [splitNumbers, leadingNumber?_numeral n h, if_pos hn]
  simp only
  split
  · next hnext =>
    rw [dropWhile_isDigit n h] at hnext ⊢
    rw [hnext]
  · next hnext =>
    rw [dropWhile_isDigit n h] at hnext
    rw [hnext]

theorem nextNumber?_of_ne {c : Char} {cs : List Char} (h : c ≠ '.') :
    nextNumber? (c :: cs) = none := by
  unfold nextNumber?
  split
  · next heq => cases heq; exact absurd rfl h
  · rfl

theorem nextNumber?_of_noDigit {cs : List Char} (h : NoDigit cs) :
    nextNumber? ('.' :: cs) = none := by
  cases cs with
  | nil => rfl
  | cons c cs => rw [nextNumber?, noDigit_cons.1 h]; rfl

/-- The numbers go on behind a dot with a numeral. -/
theorem nextNumber?_dotted (m : Numeral) (ms : List Numeral) (rest : List Char) :
    nextNumber? ('.' :: (dotted (m :: ms) ++ rest)) = some (dotted (m :: ms) ++ rest) := by
  obtain ⟨c, cs, h, hc⟩ := exists_dotted_eq m ms
  rw [h, List.cons_append, nextNumber?, if_pos hc]

/-- The numbers end at the first numeral that does not fit, or where no further one follows. -/
theorem splitNumbers_dotted {ns : List Numeral} (hne : ns ≠ []) (h : NoDigit rest)
    (hnext : nextNumber? rest = none) :
    splitNumbers (dotted ns ++ rest) =
      ((ns.takeWhile (·.value < 2 ^ 64)).map Numeral.value,
        dotted (ns.dropWhile (·.value < 2 ^ 64)) ++ rest) := by
  -- The text behind a numeral depends on whether it is the last one, hence the inner cases.
  induction ns with
  | nil => exact absurd rfl hne
  | cons n ns ih =>
    by_cases hn : n.value < 2 ^ 64
    · rw [List.takeWhile_cons_of_pos (by simpa using hn),
        List.dropWhile_cons_of_pos (by simpa using hn)]
      cases ns with
      | nil =>
        rw [dotted_singleton, splitNumbers_of_fits hn h, hnext]
        rfl
      | cons m ns =>
        rw [dotted_cons_cons, List.append_assoc, List.cons_append,
          splitNumbers_of_fits hn (noDigit_cons.2 rfl), nextNumber?_dotted]
        simp only [ih (List.cons_ne_nil m ns)]
        rfl
    · rw [List.takeWhile_cons_of_neg (by simpa using hn),
        List.dropWhile_cons_of_neg (by simpa using hn)]
      cases ns with
      | nil => rw [dotted_singleton, splitNumbers_of_large hn h, List.map_nil]
      | cons m ns =>
        rw [dotted_cons_cons, List.append_assoc, List.cons_append,
          splitNumbers_of_large hn (noDigit_cons.2 rfl), List.map_nil]

theorem ofVersion_of_v {s : String} {cs : List Char} (h : s.toList = 'v' :: cs) :
    ofVersion s = ⟨(splitNumbers cs).1, Qualifier.ofText (splitNumbers cs).2⟩ := by
  rw [ofVersion, h]
  rfl

theorem ofVersion_of_ne_v {s : String} (h : s.toList.head? ≠ some 'v') :
    ofVersion s = ⟨(splitNumbers s.toList).1, Qualifier.ofText (splitNumbers s.toList).2⟩ := by
  unfold ofVersion
  simp only
  split
  · next cs hv => exact absurd (by rw [hv, List.head?_cons]) h
  · rfl

end Key

/-! ## Decimal numbers -/

/-- Decimal renderings with dots between them. -/
def decimals (x : List Nat) : String := ".".intercalate (x.map toString)

/-- The lexicographic order, the shorter list filled up with zeros. -/
def compareFilled (x y : List Nat) : Ordering :=
  let n := max x.length y.length
  compare (x.rightpad n 0) (y.rightpad n 0)

/-- What is left of the decimals from the first number that takes more than 64 bits. -/
def beyond? (x : List Nat) : Option String :=
  match x.dropWhile (· < 2 ^ 64) with
  | [] => none
  | n :: ns => some (decimals (n :: ns))

theorem comparePadded_eq_compareFilled (x y : List Nat) :
    comparePadded x y = compareFilled x y :=
  comparePadded_eq (Nat.le_max_left _ _) (Nat.le_max_right _ _)

theorem toList_decimals (x : List Nat) :
    (decimals x).toList = Numeral.dotted (x.map Numeral.ofNat) := by
  rw [decimals, String.toList_intercalate, Numeral.dotted, List.map_map, List.map_map]
  congr 1
  refine List.map_congr_left fun n _ => ?_
  rw [Function.comp_apply, Nat.toString_eq_ofList_toDigits, String.toList_ofList]
  rfl

theorem Qualifier.ofText_of_not_mem {c : Char} {cs : List Char} (hc : c ∉ ['.', '+', '-']) :
    ofText (c :: cs) = qualified (String.ofList (c :: cs)) := by
  unfold ofText
  split
  · next h => cases h
  · next h => cases h; exact absurd (by decide) hc
  · next h => cases h; exact absurd (by decide) hc
  · next h => cases h; exact absurd (by decide) hc
  · rfl

/-- Numbers that do not fit are read as a qualifier. -/
theorem Qualifier.ofText_beyond (x : List Nat) :
    ofText (decimals (x.dropWhile (· < 2 ^ 64))).toList =
      (beyond? x).elim release qualified := by
  rw [beyond?]
  split
  · next h => rw [h]; rfl
  · next n ns h =>
    obtain ⟨c, cs, hcs, hc⟩ := Numeral.exists_dotted_eq (.ofNat n) (ns.map .ofNat)
    rw [← List.map_cons, ← toList_decimals] at hcs
    have hplain : c ∉ ['.', '+', '-'] := by
      simp only [List.mem_cons, List.not_mem_nil, or_false]
      rintro (rfl | rfl | rfl) <;> cases hc
    rw [h, hcs, ofText_of_not_mem hplain, ← hcs, String.ofList_toList]
    rfl

theorem Key.ofVersion_decimals {x : List Nat} (hx : x ≠ []) :
    ofVersion (decimals x) =
      ⟨x.takeWhile (· < 2 ^ 64), (beyond? x).elim .release .qualified⟩ := by
  have hne : x.map Numeral.ofNat ≠ [] := mt List.map_eq_nil_iff.1 hx
  have hv := Numeral.head?_dotted_ne_v hne []
  have hsplit := splitNumbers_dotted hne (show NoDigit [] from nofun) rfl
  rw [List.append_nil, ← toList_decimals] at hv hsplit
  rw [List.append_nil, List.takeWhile_map, List.dropWhile_map, List.map_map,
    ← toList_decimals] at hsplit
  simp only [Function.comp_def, Numeral.value_ofNat, List.map_id'] at hsplit
  rw [ofVersion_of_ne_v hv, hsplit, Qualifier.ofText_beyond]

theorem Qualifier.compare_elim (s t : Option String) :
    compare (s.elim release qualified) (t.elim release qualified) = compare s t := by
  cases s <;> cases t <;> rfl

theorem compareVersions_decimals_eq {x y : List Nat} (hx : x ≠ []) (hy : y ≠ []) :
    compareVersions (decimals x) (decimals y) =
      (compareFilled (x.takeWhile (· < 2 ^ 64)) (y.takeWhile (· < 2 ^ 64))).then
        (compare (beyond? x) (beyond? y)) := by
  rw [compareVersions, Key.ofVersion_decimals hx, Key.ofVersion_decimals hy,
    ← Qualifier.compare_elim, ← comparePadded_eq_compareFilled]
  rfl

theorem takeWhile_of_fits {x : List Nat} (h : ∀ n ∈ x, n < 2 ^ 64) :
    x.takeWhile (· < 2 ^ 64) = x :=
  List.takeWhile_eq_self_iff.2 fun n hn => decide_eq_true (h n hn)

theorem beyond?_of_fits {x : List Nat} (h : ∀ n ∈ x, n < 2 ^ 64) : beyond? x = none := by
  rw [beyond?, List.dropWhile_eq_nil_iff.2 fun n hn => decide_eq_true (h n hn)]

/-- The numbers are compared as long as they fit into 64 bits; as texts from there on. -/
theorem compareVersions_decimals {x y : List Nat} (hx : x ≠ []) (hy : y ≠ []) :
    compareVersions (decimals x) (decimals y) =
      (compareFilled (x.takeWhile (· < 2 ^ 64)) (y.takeWhile (· < 2 ^ 64))).then
        (compare (beyond? x) (beyond? y)) ∧
    ((∀ n ∈ x ++ y, n < 2 ^ 64) →
      compareVersions (decimals x) (decimals y) = compareFilled x y) := by
  refine ⟨compareVersions_decimals_eq hx hy, fun h => ?_⟩
  have h1 : ∀ n ∈ x, n < 2 ^ 64 := fun n hn => h n (List.mem_append_left y hn)
  have h2 : ∀ n ∈ y, n < 2 ^ 64 := fun n hn => h n (List.mem_append_right x hn)
  rw [compareVersions_decimals_eq hx hy, takeWhile_of_fits h1, takeWhile_of_fits h2,
    beyond?_of_fits h1, beyond?_of_fits h2]
  exact Ordering.then_eq

theorem compareVersions_decimals_boundary :
    [2 ^ 64 - 1, 10] ≠ [] ∧ [2 ^ 64 - 1, 9, 1] ≠ [] ∧
    (∀ n ∈ [2 ^ 64 - 1, 10] ++ [2 ^ 64 - 1, 9, 1], n < 2 ^ 64) ∧
    compareVersions (decimals [2 ^ 64 - 1, 10]) (decimals [2 ^ 64 - 1, 9, 1]) = .gt ∧
    compareVersions (decimals [1, 2 ^ 64]) (decimals [1, 5]) = .lt :=
  ⟨by decide, by decide, by decide,
    ((compareVersions_decimals (by decide) (by decide)).2 (by decide)).trans (by decide),
    (compareVersions_decimals (by decide) (by decide)).1.trans (by decide)⟩

theorem compareVersions_decimals_ne :
    compareVersions (decimals [2 ^ 64]) (decimals [2 ^ 64 - 1]) = .lt ∧
    compareFilled [2 ^ 64] [2 ^ 64 - 1] = .gt := by
  rw [compareVersions_decimals_eq (by simp) (by simp)]
  decide

end Version

end FeatureMerge
