import FeatureMerge.Json.Text

/-!
# JSON strings read back

`read` undoes `write`: `read_escapeAll` gives back the text and leaves what stands behind
the closing quote. A numbered escape is taken together with one behind it, in case the
two are a pair; what the writer puts behind one never spoils it (`Follows`).
-/

namespace FeatureMerge.Json.Text

theorem push_some (c : Char) (s rest : List Char) :
    push (some c) (some (some s, rest)) = some (some (c :: s), rest) := rfl

/-! ## One character -/

/-- How a character is written: by a short escape, by its number, or as it is. -/
theorem escape_cases (c : Char) :
    (∃ x, escape c = ['\\', x] ∧ unescape? x = some c) ∨
    (c.toNat < 0x20 ∧
      escape c = ['\\', 'u', '0', '0', hexDigit (c.toNat / 16), hexDigit c.toNat]) ∨
    (escape c = [c] ∧ c ≠ '"' ∧ c ≠ '\\' ∧ 0x20 ≤ c.toNat) := by
  unfold escape
  split
  · rename_i h
    exact .inl ⟨'"', rfl, by rw [h]; rfl⟩
  split
  · rename_i h
    exact .inl ⟨'\\', rfl, by rw [h]; rfl⟩
  split
  · rename_i h
    exact .inl ⟨'b', rfl, by rw [h]; rfl⟩
  split
  · rename_i h
    exact .inl ⟨'f', rfl, by rw [h]; rfl⟩
  split
  · rename_i h
    exact .inl ⟨'n', rfl, by rw [h]; rfl⟩
  split
  · rename_i h
    exact .inl ⟨'r', rfl, by rw [h]; rfl⟩
  split
  · rename_i h
    exact .inl ⟨'t', rfl, by rw [h]; rfl⟩
  split
  · rename_i h
    exact .inr (.inl ⟨h, rfl⟩)
  · rename_i hq hs _ _ _ _ _ hctl
    exact .inr (.inr ⟨rfl, hq, hs, by omega⟩)

theorem ne_u_of_unescape? {x c : Char} (h : unescape? x = some c) : x ≠ 'u' := by
  rintro rfl
  cases h

theorem read_short {x c : Char} (h : unescape? x = some c) (cs : List Char) :
    read ('\\' :: x :: cs) = push (some c) (read cs) := by
  have hu := ne_u_of_unescape? h
  rw [read, h]
  · exact fun _ _ _ _ _ _ _ _ _ hx => absurd hx hu
  · exact fun _ _ _ _ _ hx => absurd hx hu

theorem read_plain {c : Char} (hq : c ≠ '"') (hs : c ≠ '\\') (hc : 0x20 ≤ c.toNat)
    (cs : List Char) : read (c :: cs) = push (some c) (read cs) := by
  have htext : ¬ (c.toNat < 0x20 || c = '\\') = true := by
    simp only [Bool.or_eq_true, decide_eq_true_eq, hs, or_false]
    omega
  rw [read, if_neg htext]
  · exact hq
  · exact fun _ _ _ _ _ _ _ _ _ hx => absurd hx hs
  · exact fun _ _ _ _ _ hx => absurd hx hs
  · exact fun _ _ hx => absurd hx hs

/-! ## Numbered escapes -/

/-- The digits of a numbered escape, should the text begin with one, are digits. -/
def Follows (cs : List Char) : Prop :=
  ∀ a b c d rest, cs = '\\' :: 'u' :: a :: b :: c :: d :: rest → (unit? a b c d).isSome

theorem follows_of_ne {c : Char} (h : c ≠ '\\') (cs : List Char) : Follows (c :: cs) := by
  rintro _ _ _ _ _ ⟨⟩
  exact absurd rfl h

/-- Below `0x20` the two digits name the unit itself, which is half of no pair. -/
theorem unit?_hexDigit : ∀ n < 0x20, unit? '0' '0' (hexDigit (n / 16)) (hexDigit n) = some n ∧
    isHigh n = false ∧ single n = some (Char.ofNat n) := by decide

theorem read_unit {a b c d : Char} {unit : Nat} (h : unit? a b c d = some unit)
    (hh : isHigh unit = false) {cs : List Char} (hcs : Follows cs) :
    read ('\\' :: 'u' :: a :: b :: c :: d :: cs) = push (single unit) (read cs) := by
  by_cases hpair : ∃ e f g i rest, cs = '\\' :: 'u' :: e :: f :: g :: i :: rest
  · obtain ⟨e, f, g, i, rest, rfl⟩ := hpair
    obtain ⟨low, hlow⟩ := Option.isSome_iff_exists.1 (hcs e f g i rest rfl)
    rw [read, h, hlow]
    simp [hh]
  · rw [read, h]
    exact fun e f g i rest he => hpair ⟨e, f, g, i, rest, he⟩

/-! ## Whole strings -/

theorem follows_escapeAll (s rest : List Char) : Follows (s.flatMap escape ++ '"' :: rest) := by
  cases s with
  | nil => exact follows_of_ne (by decide) rest
  | cons c s =>
    rw [List.flatMap_cons, List.append_assoc]
    rcases escape_cases c with ⟨x, he, hx⟩ | ⟨hc, he⟩ | ⟨he, -, hs, -⟩
    · rw [he]
      intro _ _ _ _ _ hcs
      exact absurd (List.cons.inj (List.cons.inj hcs).2).1 (ne_u_of_unescape? hx)
    · rw [he]
      rintro _ _ _ _ _ ⟨⟩
      rw [(unit?_hexDigit _ hc).1]
      rfl
    · rw [he]
      exact follows_of_ne hs _

theorem read_escape (c : Char) {cs : List Char} (hcs : Follows cs) :
    read (escape c ++ cs) = push (some c) (read cs) := by
  rcases escape_cases c with ⟨x, he, hx⟩ | ⟨hc, he⟩ | ⟨he, hq, hs, hc⟩
  · rw [he]
    exact read_short hx cs
  · obtain ⟨hunit, hhigh, hsingle⟩ := unit?_hexDigit _ hc
    rw [he]
    show read ('\\' :: 'u' :: '0' :: '0' :: _ :: _ :: cs) = _
    rw [read_unit hunit hhigh hcs, hsingle, Char.ofNat_toNat]
  · rw [he]
    exact read_plain hq hs hc cs

/-- A written text is read up to its closing quote. -/
theorem read_escapeAll (s rest : List Char) :
    read (s.flatMap escape ++ '"' :: rest) = some (some s, rest) := by
  induction s with
  | nil => rfl
  | cons c s ih =>
    rw [List.flatMap_cons, List.append_assoc, read_escape c (follows_escapeAll s rest), ih,
      push_some]

end FeatureMerge.Json.Text
