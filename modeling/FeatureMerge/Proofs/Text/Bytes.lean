import Mathlib.Data.List.Basic

/-!
# Texts in byte order

Texts are compared by their characters. The order of their UTF-8 bytes is the same
(`compare_bytes`), since the codes of characters ascend and none begins another.
-/

namespace FeatureMerge.Text

/-- The text in UTF-8. -/
def bytes (s : String) : List UInt8 := s.toByteArray.data.toList

theorem bytes_eq_flatMap (s : String) : bytes s = s.toList.flatMap String.utf8EncodeChar := by
  rw [bytes, ← String.utf8Encode_toList, List.utf8Encode, List.toList_data_toByteArray]

theorem compare_ofNat {m n : Nat} (hm : m < 256) (hn : n < 256) :
    compare (UInt8.ofNat m) (UInt8.ofNat n) = compare m n := by
  show compareOfLessAndEq (UInt8.ofNat m) (UInt8.ofNat n) = compareOfLessAndEq m n
  simp only [compareOfLessAndEq, UInt8.lt_iff_toNat_lt, ← UInt8.toNat_inj, UInt8.toNat_ofNat',
    Nat.mod_eq_of_lt hm, Nat.mod_eq_of_lt hn]

theorem compare_append_left (p xs ys : List UInt8) :
    compare (p ++ xs) (p ++ ys) = compare xs ys := by
  induction p with
  | nil => rfl
  | cons b p ih =>
    rw [List.cons_append, List.cons_append, List.compare_cons_cons, Std.ReflOrd.compare_self]
    exact ih

/-- The code of the lower character is lower, whatever stands behind the two codes. -/
theorem compare_utf8EncodeChar {a b : Char} (h : a < b) (xs ys : List UInt8) :
    compare (String.utf8EncodeChar a ++ xs) (String.utf8EncodeChar b ++ ys) = .lt := by
  have hv : a.val.toNat < b.val.toNat := h
  have hb : b.val.toNat < 0x110000 := by
    have := b.valid
    rw [UInt32.isValidChar, Nat.isValidChar] at this
    omega
  simp only [String.utf8EncodeChar]
  generalize a.val.toNat = v at hv
  generalize b.val.toNat = w at hv hb
  -- All codes are cut into digits of base 64.
  have h2 : ∀ n, n / 4096 = n / 64 / 64 := fun n => by omega
  have h3 : ∀ n, n / 262144 = n / 64 / 64 / 64 := fun n => by omega
  split_ifs <;>
    simp (disch := omega) only [h2, h3, List.cons_append, List.nil_append, List.compare_cons_cons,
      compare_ofNat, Ordering.then_eq_lt, Nat.compare_eq_lt, Nat.compare_eq_eq] <;>
    omega

theorem compare_flatMap_of_lt {cs ds : List Char} (h : cs < ds) :
    compare (cs.flatMap String.utf8EncodeChar) (ds.flatMap String.utf8EncodeChar) = .lt := by
  induction h with
  | nil =>
    rename_i d ds
    obtain ⟨x, xs, hx⟩ := List.exists_cons_of_ne_nil (String.utf8EncodeChar_ne_nil (c := d))
    rw [List.flatMap_nil, List.flatMap_cons, hx]
    rfl
  | rel h => exact compare_utf8EncodeChar h _ _
  | cons h ih =>
    rw [List.flatMap_cons, List.flatMap_cons, compare_append_left]
    exact ih

theorem compare_bytes (s t : String) : compare (bytes s) (bytes t) = compare s t := by
  have hlt : ∀ {s t : String}, s < t → compare (bytes s) (bytes t) = .lt := fun h => by
    rw [bytes_eq_flatMap, bytes_eq_flatMap]
    exact compare_flatMap_of_lt (String.lt_iff.1 h)
  cases h : compare s t with
  | lt => exact hlt (compareOfLessAndEq_eq_lt.1 h)
  | eq => rw [Std.LawfulEqOrd.eq_of_compare h, Std.ReflOrd.compare_self]
  | gt =>
    have h' : compare t s = .lt := Std.OrientedCmp.lt_of_gt h
    rw [Std.OrientedOrd.eq_swap, hlt (compareOfLessAndEq_eq_lt.1 h')]
    rfl

end FeatureMerge.Text
