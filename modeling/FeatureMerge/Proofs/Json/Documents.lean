import FeatureMerge.Json.Outline
import FeatureMerge.Proofs.Json.Strings

/-!
# JSON documents read back

`Value.outline` is what reading a written value should give. `readValue_chars` says that
it does, for values without numbers and with fuel for two steps a character; so whole
texts are read back by `read_write`.
-/

namespace FeatureMerge.Json

namespace Value

mutual

/-- The value as it is read. -/
def outline : Value → Outline
  | null => .null
  | boolean b => .boolean b
  | number n => .number (some n)
  | string s => .string (some s)
  | array items => .array (itemsOutline items)
  | object members => .object (membersOutline members)

def itemsOutline : List Value → Items
  | [] => .closed
  | v :: vs => .cons v.outline (itemsOutline vs)

def membersOutline : List (String × Value) → Members
  | [] => .closed
  | (key, v) :: rest => .cons (.string (some key)) v.outline (membersOutline rest)

end

mutual

def HasNoNumber : Value → Prop
  | number _ => False
  | array items => HaveNoNumber items
  | object members => MembersHaveNoNumber members
  | _ => True

def HaveNoNumber : List Value → Prop
  | [] => True
  | v :: vs => v.HasNoNumber ∧ HaveNoNumber vs

def MembersHaveNoNumber : List (String × Value) → Prop
  | [] => True
  | (_, v) :: rest => v.HasNoNumber ∧ MembersHaveNoNumber rest

end

theorem separated_cons (text next : List Char) (texts : List (List Char)) :
    separated (text :: next :: texts) = text ++ ',' :: separated (next :: texts) := rfl

theorem exists_separated_eq (text : List Char) (texts : List (List Char)) :
    ∃ cs, separated (text :: texts) = text ++ cs := by
  cases texts with
  | nil => exact ⟨[], (List.append_nil text).symm⟩
  | cons next texts => exact ⟨_, separated_cons text next texts⟩

theorem chars_string (s : String) :
    (string s).chars = '"' :: (s.toList.flatMap Text.escape ++ ['"']) := by
  rw [chars, Text.write]

/-- A value does not begin with a blank or with the end of an array. -/
theorem exists_chars_eq {v : Value} (hv : v.HasNoNumber) :
    ∃ c cs, v.chars = c :: cs ∧ Outline.isBlank c = false ∧ c ≠ ']' := by
  cases v with
  | null => exact ⟨'n', _, by rw [chars]; rfl, by decide, by decide⟩
  | boolean b =>
    cases b with
    | true => exact ⟨'t', _, by rw [chars]; rfl, by decide, by decide⟩
    | false => exact ⟨'f', _, by rw [chars]; rfl, by decide, by decide⟩
  | number n => exact absurd hv id
  | string s => exact ⟨'"', _, chars_string s, by decide, by decide⟩
  | array items => exact ⟨'[', _, by rw [chars]; rfl, by decide, by decide⟩
  | object members => exact ⟨'\x7b', _, by rw [chars]; rfl, by decide, by decide⟩

theorem exists_itemChars_eq {v : Value} (hv : v.HasNoNumber) (vs : List Value) :
    ∃ c cs, separated (itemChars (v :: vs)) = c :: cs ∧ Outline.isBlank c = false ∧ c ≠ ']' := by
  obtain ⟨c, cs, hc, hb, hclose⟩ := exists_chars_eq hv
  obtain ⟨tail, htail⟩ := exists_separated_eq v.chars (itemChars vs)
  exact ⟨c, cs ++ tail, by rw [itemChars, htail, hc, List.cons_append], hb, hclose⟩

theorem exists_memberChars_eq (m : String × Value) (ms : List (String × Value)) :
    ∃ cs, separated (memberChars (m :: ms)) = '"' :: cs := by
  obtain ⟨key, v⟩ := m
  obtain ⟨tail, htail⟩ :=
    exists_separated_eq (Text.write key.toList ++ ':' :: v.chars) (memberChars ms)
  rw [memberChars, htail]
  exact ⟨_, rfl⟩

theorem chars_array (items : List Value) :
    (array items).chars = '[' :: (separated (itemChars items) ++ [']']) := by
  rw [chars, List.cons_append]

theorem chars_object (members : List (String × Value)) :
    (object members).chars = '\x7b' :: (separated (memberChars members) ++ ['\x7d']) := by
  rw [chars, List.cons_append]

end Value

namespace Outline

open Value (separated itemChars memberChars itemsOutline membersOutline)

/-! ## One step of the reader -/

theorem skipBlanks_cons {c : Char} (h : isBlank c = false) (cs : List Char) :
    skipBlanks (c :: cs) = c :: cs := by
  rw [skipBlanks, List.dropWhile_cons_of_neg]
  rw [h]
  decide

theorem readValue_string (n : Nat) (s : String) (rest : List Char) :
    readValue (n + 1) ((Value.string s).chars ++ rest) = (.string (some s), some rest) := by
  rw [Value.chars_string, readValue, List.cons_append, skipBlanks_cons (by decide)]
  show readString (s.toList.flatMap Text.escape ++ ['"'] ++ rest) = _
  rw [readString, List.append_assoc, List.singleton_append, Text.read_escapeAll]
  show (Outline.string (some (String.ofList s.toList)), some rest) = _
  rw [String.ofList_toList]

theorem readValue_items {c : Char} (hb : isBlank c = false) (hc : c ≠ ']') (n : Nat)
    (cs : List Char) : readValue (n + 1) ('[' :: c :: cs) =
      (.array (readItems n (c :: cs)).1, (readItems n (c :: cs)).2) := by
  rw [readValue, skipBlanks_cons (by decide)]
  simp only [skipBlanks_cons hb]
  split
  · rename_i he
    exact absurd (List.cons.inj he).1 hc
  · rfl

theorem readValue_members {c : Char} (hb : isBlank c = false) (hc : c ≠ '\x7d') (n : Nat)
    (cs : List Char) : readValue (n + 1) ('\x7b' :: c :: cs) =
      (.object (readMembers n (c :: cs)).1, (readMembers n (c :: cs)).2) := by
  rw [readValue, skipBlanks_cons (by decide)]
  simp only [skipBlanks_cons hb]
  split
  · rename_i he
    exact absurd (List.cons.inj he).1 hc
  · rfl

theorem readItems_last {n : Nat} {cs rest : List Char} {o : Outline}
    (h : readValue n cs = (o, some (']' :: rest))) :
    readItems (n + 1) cs = (.cons o .closed, some rest) := by
  rw [readItems, h]
  rfl

theorem readItems_next {n : Nat} {cs rest : List Char} {o : Outline}
    (h : readValue n cs = (o, some (',' :: rest))) :
    readItems (n + 1) cs = (.cons o (readItems n rest).1, (readItems n rest).2) := by
  rw [readItems, h]
  rfl

theorem readMembers_last {n : Nat} {cs cs' rest : List Char} {key o : Outline}
    (hk : readValue n cs = (key, some (':' :: cs')))
    (h : readValue n cs' = (o, some ('\x7d' :: rest))) :
    readMembers (n + 1) cs = (.cons key o .closed, some rest) := by
  have hcolon : skipBlanks (':' :: cs') = ':' :: cs' := skipBlanks_cons (by decide) cs'
  rw [readMembers, hk]
  simp only [hcolon, h]
  rfl

theorem readMembers_next {n : Nat} {cs cs' rest : List Char} {key o : Outline}
    (hk : readValue n cs = (key, some (':' :: cs')))
    (h : readValue n cs' = (o, some (',' :: rest))) :
    readMembers (n + 1) cs = (.cons key o (readMembers n rest).1, (readMembers n rest).2) := by
  have hcolon : skipBlanks (':' :: cs') = ':' :: cs' := skipBlanks_cons (by decide) cs'
  rw [readMembers, hk]
  simp only [hcolon, h]
  rfl

/-! ## Written values -/

mutual

/-- A written value is read as its outline. Each character pays for two steps. -/
theorem readValue_chars : ∀ (v : Value), v.HasNoNumber → ∀ (fuel : Nat) (rest : List Char),
    2 * v.chars.length ≤ fuel → readValue fuel (v.chars ++ rest) = (v.outline, some rest)
  | v, hv, 0, _, hf => by
    obtain ⟨c, cs, hc, -⟩ := Value.exists_chars_eq hv
    rw [hc, List.length_cons] at hf
    omega
  | .null, _, n + 1, rest, _ => by
    rw [Value.chars, Value.outline, readValue]
    rfl
  | .boolean true, _, n + 1, rest, _ => by
    rw [Value.chars, Value.outline, readValue]
    rfl
  | .boolean false, _, n + 1, rest, _ => by
    rw [Value.chars, Value.outline, readValue]
    rfl
  | .number _, hv, _, _, _ => absurd hv id
  | .string s, _, n + 1, rest, _ => readValue_string n s rest
  | .array [], _, n + 1, rest, _ => by
    rw [Value.chars, Value.outline, readValue]
    rfl
  | .array (v :: vs), hv, n + 1, rest, hf => by
    obtain ⟨c, cs, hc, hblank, hclose⟩ := Value.exists_itemChars_eq hv.1 vs
    rw [Value.chars_array] at hf ⊢
    simp only [List.length_cons, List.length_append, List.length_nil] at hf
    have hitems := readItems_chars (v :: vs) (List.cons_ne_nil v vs) hv n rest (by omega)
    rw [hc] at hitems ⊢
    rw [List.cons_append, List.append_assoc, List.cons_append, readValue_items hblank hclose]
    rw [← List.cons_append, List.singleton_append, hitems, Value.outline]
  | .object [], _, n + 1, rest, _ => by
    rw [Value.chars, Value.outline, readValue]
    rfl
  | .object (m :: ms), hv, n + 1, rest, hf => by
    obtain ⟨cs, hc⟩ := Value.exists_memberChars_eq m ms
    rw [Value.chars_object] at hf ⊢
    simp only [List.length_cons, List.length_append, List.length_nil] at hf
    have hmembers := readMembers_chars (m :: ms) (List.cons_ne_nil m ms) hv n rest (by omega)
    rw [hc] at hmembers ⊢
    rw [List.cons_append, List.append_assoc, List.cons_append,
      readValue_members (by decide) (by decide)]
    rw [← List.cons_append, List.singleton_append, hmembers, Value.outline]

theorem readItems_chars : ∀ (vs : List Value), vs ≠ [] → Value.HaveNoNumber vs →
    ∀ (fuel : Nat) (rest : List Char), 2 * (separated (itemChars vs)).length < fuel →
      readItems fuel (separated (itemChars vs) ++ ']' :: rest) = (itemsOutline vs, some rest)
  | _, _, _, 0, _, hf => absurd hf (Nat.not_lt_zero _)
  | [], h, _, _, _, _ => absurd rfl h
  | [v], _, hv, n + 1, rest, hf => by
    have hchars : separated (itemChars [v]) = v.chars := by
      rw [Value.itemChars, Value.itemChars, separated]
    rw [hchars] at hf ⊢
    have h := readValue_chars v hv.1 n (']' :: rest) (by omega)
    rw [readItems_last h, itemsOutline, itemsOutline]
  | v :: w :: vs, _, hv, n + 1, rest, hf => by
    have hchars : separated (itemChars (v :: w :: vs)) =
        v.chars ++ ',' :: separated (itemChars (w :: vs)) := by
      rw [Value.itemChars, Value.itemChars, Value.separated_cons]
    rw [hchars] at hf ⊢
    simp only [List.length_append, List.length_cons] at hf
    rw [List.append_assoc, List.cons_append]
    have h := readValue_chars v hv.1 n (',' :: (separated (itemChars (w :: vs)) ++ ']' :: rest))
      (by omega)
    have h' := readItems_chars (w :: vs) (List.cons_ne_nil w vs) hv.2 n rest (by omega)
    rw [readItems_next h, h']
    rfl

theorem readMembers_chars : ∀ (ms : List (String × Value)), ms ≠ [] →
    Value.MembersHaveNoNumber ms → ∀ (fuel : Nat) (rest : List Char),
      2 * (separated (memberChars ms)).length < fuel →
        readMembers fuel (separated (memberChars ms) ++ '\x7d' :: rest) =
          (membersOutline ms, some rest)
  | _, _, _, 0, _, hf => absurd hf (Nat.not_lt_zero _)
  | [], h, _, _, _, _ => absurd rfl h
  | [(key, v)], _, hv, n + 1, rest, hf => by
    have hchars : separated (memberChars [(key, v)]) =
        (Value.string key).chars ++ ':' :: v.chars := by
      rw [Value.memberChars, Value.memberChars, separated, Value.chars]
    rw [hchars] at hf ⊢
    simp only [List.length_append, List.length_cons] at hf
    rw [List.append_assoc, List.cons_append]
    have hk := readValue_string (n - 1) key (':' :: (v.chars ++ '\x7d' :: rest))
    rw [Nat.sub_add_cancel (by omega)] at hk
    have h := readValue_chars v hv.1 n ('\x7d' :: rest) (by omega)
    rw [readMembers_last hk h, membersOutline, membersOutline]
  | (key, v) :: m :: ms, _, hv, n + 1, rest, hf => by
    have hchars : separated (memberChars ((key, v) :: m :: ms)) =
        (Value.string key).chars ++
          ':' :: (v.chars ++ ',' :: separated (memberChars (m :: ms))) := by
      rw [Value.memberChars, Value.memberChars, Value.separated_cons, Value.chars]
      simp
    rw [hchars] at hf ⊢
    simp only [List.length_append, List.length_cons] at hf
    rw [List.append_assoc, List.cons_append, List.append_assoc, List.cons_append]
    have hk := readValue_string (n - 1) key
      (':' :: (v.chars ++ ',' :: (separated (memberChars (m :: ms)) ++ '\x7d' :: rest)))
    rw [Nat.sub_add_cancel (by omega)] at hk
    have h := readValue_chars v hv.1 n
      (',' :: (separated (memberChars (m :: ms)) ++ '\x7d' :: rest)) (by omega)
    have h' := readMembers_chars (m :: ms) (List.cons_ne_nil m ms) hv.2 n rest (by omega)
    rw [readMembers_next hk h, h']
    rfl

end

end Outline

theorem Document.read_write {v : Value} (hv : v.HasNoNumber) :
    read v.write = ⟨v.outline, true⟩ := by
  have h := Outline.readValue_chars v hv (2 * v.chars.length + 2) [] (Nat.le_add_right _ _)
  rw [List.append_nil] at h
  rw [read, Value.write, String.toList_ofList, h]
  rfl

end FeatureMerge.Json
