import FeatureMerge.Feature.Document
import FeatureMerge.Proofs.Except
import FeatureMerge.Proofs.Json.Documents
import FeatureMerge.Proofs.Maps

/-!
# Decoding what was written

A decoder that goes through a written value meets its parts in order, so decoding lists
and maps is a traversal of what they were written from. `readRecord` reads the members of
a record that may be absent, one at a time.
-/

namespace FeatureMerge

open Json (Decoded Document Items Members Outline Value)

namespace Json

variable {α β σ : Type}

/-- Decoding a written text is decoding its value. -/
theorem Document.decode_write {v : Value} (hv : v.HasNoNumber) (decode : Outline → Decoded α) :
    Document.decode decode v.write = decode v.outline := by
  unfold Document.decode
  rw [read_write hv]
  show (do let a ← decode v.outline; if true = true then return a else .error .malformed) = _
  simp only [if_true]
  exact bind_pure _

/-- A text is decoded when all of it is one document, and what this holds can be decoded. -/
theorem Document.decode_eq_ok_iff {decode : Outline → Decoded α} {text : String} {a : α} :
    Document.decode decode text = .ok a ↔
      ∃ root, Document.read text = ⟨root, true⟩ ∧ decode root = .ok a := by
  unfold Document.decode
  generalize Document.read text = d
  obtain ⟨root, isAll⟩ := d
  constructor
  · intro h
    obtain ⟨a', ha, h⟩ := bind_eq_ok_iff.1 h
    cases isAll <;> cases h
    exact ⟨root, rfl, ha⟩
  · rintro ⟨_, ⟨⟩, ha⟩
    exact bind_eq_ok_iff.2 ⟨a, ha, rfl⟩

namespace Value

theorem fold_membersOutline (step : σ → String → Outline → Decoded σ) (s : σ)
    (members : List (String × Value)) : (membersOutline members).fold step s =
      members.foldlM (fun s m => step s m.1 m.2.outline) s := by
  induction members generalizing s with
  | nil => rfl
  | cons m members ih =>
    rw [membersOutline, Members.fold, List.foldlM_cons]
    show (do let s ← step s m.1 m.2.outline; (membersOutline members).fold step s) = _
    simp only [ih]

theorem decode_itemsOutline (item : Outline → Decoded β) (write : α → Value) (items : List α) :
    (itemsOutline (items.map write)).decode item =
      items.mapM fun a => item (write a).outline := by
  induction items with
  | nil => rfl
  | cons a items ih =>
    rw [List.map_cons, itemsOutline, Items.decode, ih, List.mapM_cons]

theorem haveNoNumber_iff {items : List Value} :
    HaveNoNumber items ↔ ∀ v ∈ items, v.HasNoNumber := by
  induction items with
  | nil => simp [HaveNoNumber]
  | cons v items ih => simp [HaveNoNumber, ih]

theorem membersHaveNoNumber_iff {members : List (String × Value)} :
    MembersHaveNoNumber members ↔ ∀ m ∈ members, m.2.HasNoNumber := by
  induction members with
  | nil => simp [MembersHaveNoNumber]
  | cons m members ih => simp [MembersHaveNoNumber, ih]

end Value

theorem Value.hasNoNumber_objectOf {members : List (Option (String × Value))}
    (h : ∀ o ∈ members, ∀ m ∈ o, m.2.HasNoNumber) : (Value.objectOf members).HasNoNumber := by
  show Value.MembersHaveNoNumber (members.filterMap id)
  rw [Value.membersHaveNoNumber_iff]
  intro m hm
  obtain ⟨o, ho, hom⟩ := List.mem_filterMap.1 hm
  exact h o ho m hom

/-! ## Records -/

/-- Reads the members that are not absent into a record and finishes it. -/
def readRecord (add : σ → String → Outline → Decoded σ) (finish : σ → Decoded β) (s : σ)
    (members : List (Option (String × Value))) : Decoded β := do
  finish (← (Value.membersOutline (members.filterMap id)).fold add s)

section

variable {add : σ → String → Outline → Decoded σ} {finish : σ → Decoded β} {s : σ}

theorem readRecord_nil : readRecord add finish s [] = finish s := rfl

theorem readRecord_some (name : String) (v : Value) (members : List (Option (String × Value))) :
    readRecord add finish s (some (name, v) :: members) =
      add s name v.outline >>= fun s => readRecord add finish s members := by
  unfold readRecord
  simp only [Value.fold_membersOutline]
  rw [List.filterMap_cons_some (by rfl), List.foldlM_cons, bind_assoc]

theorem readRecord_some_of_ok {name : String} {v : Value} {s' : σ}
    (h : add s name v.outline = .ok s') (members : List (Option (String × Value))) :
    readRecord add finish s (some (name, v) :: members) = readRecord add finish s' members := by
  rw [readRecord_some, h]
  rfl

/-- A member that may be left out: both ways come to the same. -/
theorem readRecord_member {name : String} {isAbsent : Bool} {v : Value}
    {members : List (Option (String × Value))} {x : Decoded β}
    (habsent : isAbsent = true → readRecord add finish s members = x)
    (hpresent : (add s name v.outline >>= fun s => readRecord add finish s members) = x) :
    readRecord add finish s (member name isAbsent v :: members) = x := by
  cases isAbsent with
  | true => exact habsent rfl
  | false => exact (readRecord_some name v members).trans hpresent

end

end Json

theorem forall_mem_member {name : String} {isAbsent : Bool} {v : Value} (h : v.HasNoNumber) :
    ∀ m ∈ member name isAbsent v, m.2.HasNoNumber := by
  cases isAbsent with
  | true => exact nofun
  | false =>
    rintro _ ⟨⟩
    exact h

theorem readText_string {α : Type} (read : String → Except BuildError α) (s : String) :
    readText read (.string (some s)) = (read s).mapError fun e => .data (.refused e.message) := by
  have htext : Outline.text (.string (some s)) = .ok s := rfl
  unfold readText
  simp only [htext, bind, Except.bind]
  cases read s <;> rfl

/-! ## Maps -/

/-- The object with these members, whose values are all texts. -/
def Entries.value (entries : List Entry) : Value :=
  .object (entries.map fun e => (e.1, .string e.2))

theorem Entries.hasNoNumber_value (entries : List Entry) : (value entries).HasNoNumber := by
  show Value.MembersHaveNoNumber _
  rw [Value.membersHaveNoNumber_iff]
  intro m hm
  obtain ⟨e, -, rfl⟩ := List.mem_map.1 hm
  trivial

namespace Json.Outline

theorem unexpected_ne_ok {α : Type} {o : Outline} {wanted : String} {a : α} :
    o.unexpected wanted ≠ .ok a := by
  intro h
  obtain ⟨found, -, hfail⟩ := bind_eq_ok_iff.1 h
  cases hfail

theorem key_eq_ok_iff {o : Outline} {key : String} :
    o.key = .ok key ↔ o = .string (some key) := by
  constructor
  · intro h
    unfold Outline.key at h
    split at h <;> cases h
    rfl
  · rintro rfl
    rfl

theorem text_eq_ok_iff {o : Outline} {s : String} : o.text = .ok s ↔ o = .string (some s) := by
  constructor
  · intro h
    unfold Outline.text at h
    split at h
    · cases h
      rfl
    · exact absurd h unexpected_ne_ok
  · rintro rfl
    rfl

end Json.Outline

theorem readText_eq_ok_iff {α : Type} {read : String → Except BuildError α} {o : Outline} {a : α} :
    readText read o = .ok a ↔ ∃ s, o = .string (some s) ∧ read s = .ok a := by
  constructor
  · intro h
    obtain ⟨s, hs, -⟩ := bind_eq_ok_iff.1 h
    obtain rfl := Json.Outline.text_eq_ok_iff.1 hs
    rw [readText_string, mapError_eq_ok_iff] at h
    exact ⟨s, rfl, h⟩
  · rintro ⟨s, rfl, h⟩
    rw [readText_string, mapError_eq_ok_iff]
    exact h

namespace Json.Members

/-- What reading the members of a map does with one of them. -/
def insertText (m : Properties) (key : String) (v : Outline) : Decoded Properties := do
  return m.insert key (← v.text)

theorem fold_insertText (entries : List Entry) (m : Properties) :
    (Value.membersOutline (entries.map fun e => (e.1, .string e.2))).fold insertText m =
      .ok (m.insertMany entries) := by
  induction entries generalizing m with
  | nil => rfl
  | cons e entries ih => exact ih (m.insert e.1 e.2)

/-- Only an object of texts can be read as a map. -/
theorem eq_membersOutline_of_fold : ∀ {members : Members} {m m' : Properties},
    members.fold insertText m = .ok m' →
      ∃ entries : List Entry, m' = m.insertMany entries ∧
        members = Value.membersOutline (entries.map fun e => (e.1, .string e.2))
  | .closed, _, _, h => by
    cases h
    exact ⟨[], rfl, rfl⟩
  | .broken, _, _, h => by cases h
  | .cons o v tail, m, m', h => by
    obtain ⟨key, hkey, h⟩ := bind_eq_ok_iff.1 h
    obtain ⟨m₁, hinsert, htail⟩ := bind_eq_ok_iff.1 h
    obtain ⟨value, htext, hm₁⟩ := bind_eq_ok_iff.1 hinsert
    obtain ⟨entries, rfl, rfl⟩ := eq_membersOutline_of_fold htail
    cases hm₁
    rw [Outline.key_eq_ok_iff.1 hkey, Outline.text_eq_ok_iff.1 htext]
    exact ⟨(key, value) :: entries, rfl, rfl⟩

end Json.Members

/-- An object of texts is read by putting its members into a map, one after another. -/
theorem Entries.properties_eq_ok_iff {o : Outline} {m : Properties} :
    Outline.properties o = .ok m ↔
      ∃ entries, o = (value entries).outline ∧ m = .ofList entries := by
  constructor
  · intro h
    unfold Outline.properties at h
    split at h
    · obtain ⟨entries, rfl, rfl⟩ := Json.Members.eq_membersOutline_of_fold h
      exact ⟨entries, rfl, rfl⟩
    · exact absurd h Outline.unexpected_ne_ok
  · rintro ⟨entries, rfl, rfl⟩
    exact Json.Members.fold_insertText entries .empty

theorem Properties.properties_value (m : Properties) :
    Outline.properties m.value.outline = .ok m := by
  exact Entries.properties_eq_ok_iff.2 ⟨m.toList, rfl, m.ofList_toList.symm⟩

/-- The texts that hold a map, and the map that each of them holds. -/
theorem Properties.ofJson_eq_ok_iff {text : String} {m : Properties} :
    ofJson text = .ok m ↔ ∃ entries,
      Document.read text = ⟨(Entries.value entries).outline, true⟩ ∧ m = .ofList entries := by
  unfold ofJson
  rw [Document.decode_eq_ok_iff]
  constructor
  · rintro ⟨root, hread, h⟩
    obtain ⟨entries, rfl, rfl⟩ := Entries.properties_eq_ok_iff.1 h
    exact ⟨entries, hread, rfl⟩
  · rintro ⟨entries, hread, rfl⟩
    exact ⟨_, hread, Entries.properties_eq_ok_iff.2 ⟨entries, rfl, rfl⟩⟩

end FeatureMerge
