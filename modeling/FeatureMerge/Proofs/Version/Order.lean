import FeatureMerge.Version.Key

/-!
# Versions are totally preordered

Each level of a version's key is compared by a lawful order: identifiers and
pre-releases, qualifiers, and numbers as if padded with zeros to one length.
`compareVersions` compares keys, so it is a total preorder on all texts
(`compareVersions_totalPreorder`). Two versions tie exactly when their numbers
agree up to zeros at the end and their qualifiers are equal.
-/

namespace FeatureMerge.Version

open Std

/-! ## Pre-releases -/

namespace Identifier

theorem compare_swap (a b : Identifier) : compare a b = (compare b a).swap := by
  cases a with
  | number m =>
    cases b with
    | number n => exact OrientedOrd.eq_swap (a := m) (b := n)
    | word t => rfl
  | word s =>
    cases b with
    | number n => rfl
    | word t => exact OrientedOrd.eq_swap (a := s) (b := t)

theorem compare_isLE_trans {a b c : Identifier} (hab : (compare a b).isLE)
    (hbc : (compare b c).isLE) : (compare a c).isLE := by
  cases a with
  | number m =>
    cases c with
    | word u => rfl
    | number k =>
      cases b with
      | word t => cases hbc
      | number n => exact TransOrd.isLE_trans (a := m) (b := n) hab hbc
  | word s =>
    cases b with
    | number n => cases hab
    | word t =>
      cases c with
      | number k => cases hbc
      | word u => exact TransOrd.isLE_trans (a := s) (b := t) hab hbc

instance : TransOrd Identifier where
  eq_swap := compare_swap _ _
  isLE_trans := compare_isLE_trans

instance : LawfulEqOrd Identifier where
  eq_of_compare {a b} h := by
    cases a with
    | number m =>
      cases b with
      | number n => exact congrArg number (LawfulEqOrd.eq_of_compare (α := Nat) h)
      | word t => cases h
    | word s =>
      cases b with
      | number n => cases h
      | word t => exact congrArg word (LawfulEqOrd.eq_of_compare (α := String) h)

end Identifier

namespace Prerelease

/-- Only the empty pre-release stands out; the others are compared as lists. -/
theorem compare_eq (p q : Prerelease) :
    compare p q = (compare p.identifiers.isEmpty q.identifiers.isEmpty).then
      (compare p.identifiers q.identifiers) := by
  obtain ⟨is⟩ := p
  obtain ⟨js⟩ := q
  cases is <;> cases js <;> rfl

theorem compare_eq_lex : (compare : Prerelease → Prerelease → Ordering) =
    compareLex (compareOn fun p => p.identifiers.isEmpty) (compareOn identifiers) := by
  funext p q
  exact compare_eq p q

instance : TransOrd Prerelease := by
  rw [TransOrd, compare_eq_lex]
  infer_instance

instance : LawfulEqOrd Prerelease where
  eq_of_compare {p q} h := by
    rw [compare_eq, Ordering.then_eq_eq] at h
    have hids : p.identifiers = q.identifiers := LawfulEqOrd.eq_of_compare h.2
    cases p
    cases q
    rw [mk.injEq]
    exact hids

end Prerelease

/-! ## Qualifiers -/

namespace Qualifier

theorem compare_of_rank_ne {a b : Qualifier} (h : a.rank ≠ b.rank) :
    compare a b = compare a.rank b.rank := by
  unfold compare instOrd
  dsimp only
  split
  · exact absurd rfl h
  · exact absurd rfl h
  · exact absurd rfl h
  · rfl

theorem compare_swap (a b : Qualifier) : compare a b = (compare b a).swap := by
  by_cases h : a.rank = b.rank
  · cases a <;> cases b <;> cases h
    · exact OrientedOrd.eq_swap (α := Prerelease)
    · exact OrientedOrd.eq_swap (α := String)
    · rfl
    · exact OrientedOrd.eq_swap (α := String)
  · rw [compare_of_rank_ne h, compare_of_rank_ne (Ne.symm h)]
    exact OrientedOrd.eq_swap

theorem rank_le_of_isLE {a b : Qualifier} (h : (compare a b).isLE) : a.rank ≤ b.rank := by
  by_cases hr : a.rank = b.rank
  · exact Nat.le_of_eq hr
  · rw [compare_of_rank_ne hr] at h
    exact Nat.isLE_compare.1 h

theorem compare_isLE_trans {a b c : Qualifier} (hab : (compare a b).isLE)
    (hbc : (compare b c).isLE) : (compare a c).isLE := by
  have h1 := rank_le_of_isLE hab
  have h2 := rank_le_of_isLE hbc
  by_cases h : a.rank = c.rank
  · -- The ranks in between are equal too, so all three are of one kind.
    have h3 : a.rank = b.rank := by omega
    cases a <;> cases b <;> cases h3 <;> cases c <;> cases h
    · exact TransOrd.isLE_trans (α := Prerelease) hab hbc
    · exact TransOrd.isLE_trans (α := String) hab hbc
    · rfl
    · exact TransOrd.isLE_trans (α := String) hab hbc
  · rw [compare_of_rank_ne h]
    exact Nat.isLE_compare.2 (by omega)

instance : TransOrd Qualifier where
  eq_swap := compare_swap _ _
  isLE_trans := compare_isLE_trans

instance : LawfulEqOrd Qualifier where
  eq_of_compare {a b} h := by
    by_cases hr : a.rank = b.rank
    · cases a <;> cases b <;> cases hr
      · exact congrArg prerelease (LawfulEqOrd.eq_of_compare h)
      · exact congrArg irregular (LawfulEqOrd.eq_of_compare h)
      · rfl
      · exact congrArg qualified (LawfulEqOrd.eq_of_compare h)
    · rw [compare_of_rank_ne hr] at h
      exact absurd (LawfulEqOrd.eq_of_compare h) hr

end Qualifier

/-! ## Numbers -/

theorem comparePadded_uncons (as bs : List Nat) :
    comparePadded as bs =
      (compare (as.headD 0) (bs.headD 0)).then (comparePadded as.tail bs.tail) := by
  cases as with
  | nil =>
    cases bs with
    | nil => simp [comparePadded]
    | cons b bs => rw [comparePadded]; rfl
  | cons a as =>
    cases bs with
    | nil => rw [comparePadded]; rfl
    | cons b bs => rw [comparePadded]; rfl

theorem rightpad_succ (n : Nat) (as : List Nat) :
    as.rightpad (n + 1) 0 = as.headD 0 :: as.tail.rightpad n 0 := by
  cases as with
  | nil => simp [List.rightpad, List.replicate_succ]
  | cons a as => simp [List.rightpad]

/-- Padded to one length, the numbers are compared lexicographically. -/
theorem comparePadded_eq {n : Nat} {as bs : List Nat} (ha : as.length ≤ n)
    (hb : bs.length ≤ n) :
    comparePadded as bs = compare (as.rightpad n 0) (bs.rightpad n 0) := by
  induction n generalizing as bs with
  | zero =>
    rw [List.length_eq_zero_iff.1 (Nat.le_zero.1 ha), List.length_eq_zero_iff.1 (Nat.le_zero.1 hb),
      ReflOrd.compare_self, comparePadded]
  | succ n ih =>
    have h : comparePadded as.tail bs.tail =
        compare (as.tail.rightpad n 0) (bs.tail.rightpad n 0) :=
      ih (by rw [List.length_tail]; omega) (by rw [List.length_tail]; omega)
    rw [comparePadded_uncons, h, rightpad_succ, rightpad_succ, List.compare_cons_cons]

/-- The numbers tie when they agree at every place, missing ones counting as zero. -/
theorem comparePadded_eq_eq_iff (as bs : List Nat) :
    comparePadded as bs = .eq ↔ ∀ i, as.getD i 0 = bs.getD i 0 := by
  fun_induction comparePadded as bs with
  | case1 => simp
  | case2 b bs ih =>
    rw [Ordering.then_eq_eq, ih, Nat.compare_eq_eq]
    exact Nat.and_forall_add_one (p := fun i => [].getD i 0 = (b :: bs).getD i 0)
  | case3 a as ih =>
    rw [Ordering.then_eq_eq, ih, Nat.compare_eq_eq]
    exact Nat.and_forall_add_one (p := fun i => (a :: as).getD i 0 = [].getD i 0)
  | case4 a as b bs ih =>
    rw [Ordering.then_eq_eq, ih, Nat.compare_eq_eq]
    exact Nat.and_forall_add_one (p := fun i => (a :: as).getD i 0 = (b :: bs).getD i 0)

instance : TransCmp comparePadded where
  eq_swap {as bs} := by
    have ha : as.length ≤ max as.length bs.length := by omega
    have hb : bs.length ≤ max as.length bs.length := by omega
    rw [comparePadded_eq ha hb, comparePadded_eq hb ha]
    exact OrientedOrd.eq_swap
  isLE_trans {as bs cs} hab hbc := by
    let n := max as.length (max bs.length cs.length)
    have ha : as.length ≤ n := by omega
    have hb : bs.length ≤ n := by omega
    have hc : cs.length ≤ n := by omega
    rw [comparePadded_eq ha hb] at hab
    rw [comparePadded_eq hb hc] at hbc
    rw [comparePadded_eq ha hc]
    exact TransOrd.isLE_trans hab hbc

/-! ## Keys and versions -/

instance : TransCmp fun a b : Key => comparePadded a.numbers b.numbers where
  eq_swap {a b} := by
    show comparePadded a.numbers b.numbers = (comparePadded b.numbers a.numbers).swap
    exact OrientedCmp.eq_swap
  isLE_trans hab hbc := TransCmp.isLE_trans hab hbc

instance : TransOrd Key :=
  inferInstanceAs (TransCmp (compareLex (fun a b : Key => comparePadded a.numbers b.numbers)
    (compareOn Key.qualifier)))

instance : TransCmp compareVersions where
  eq_swap := OrientedOrd.eq_swap (α := Key)
  isLE_trans := TransOrd.isLE_trans (α := Key)

/-- Versions tie when their numbers agree up to zeros at the end and their qualifiers are equal. -/
theorem compareVersions_eq_eq_iff (a b : String) :
    compareVersions a b = .eq ↔
      (∀ i, (Key.ofVersion a).numbers.getD i 0 = (Key.ofVersion b).numbers.getD i 0) ∧
      (Key.ofVersion a).qualifier = (Key.ofVersion b).qualifier := by
  rw [← comparePadded_eq_eq_iff,
    ← LawfulEqOrd.compare_eq_iff_eq (a := (Key.ofVersion a).qualifier)]
  exact Ordering.then_eq_eq

theorem compareVersions_totalPreorder (a b c : String) :
    compareVersions a a = .eq ∧
    compareVersions b a = (compareVersions a b).swap ∧
    ((compareVersions a b).isLE → (compareVersions b c).isLE →
      (compareVersions a c).isLE ∧
      (compareVersions a b = .lt ∨ compareVersions b c = .lt → compareVersions a c = .lt)) ∧
    (compareVersions a b = .eq → compareVersions a c = compareVersions b c) := by
  refine ⟨ReflCmp.compare_self, OrientedCmp.eq_swap, fun hab hbc => ⟨?_, ?_⟩, ?_⟩
  · exact TransCmp.isLE_trans hab hbc
  · rintro (h | h)
    · exact TransCmp.lt_of_lt_of_isLE h hbc
    · exact TransCmp.lt_of_isLE_of_lt hab h
  · exact TransCmp.congr_left

end FeatureMerge.Version
