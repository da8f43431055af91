import FeatureMerge.Text.Pieces
import Mathlib.Data.List.Basic

/-!
# Cutting and joining texts

`joined` undoes `pieces`, and `pieces` undoes `joined` when no part holds the
separator; no piece does. A text has one last piece (`append_cons_inj`).
-/

namespace FeatureMerge.Text

theorem after?_eq_some_iff {start s rest : String} :
    after? start s = some rest ↔ s.toList = start.toList ++ rest.toList := by
  unfold after?
  rw [Option.map_eq_some_iff]
  constructor
  · rintro ⟨cs, h, rfl⟩
    rw [String.toList_ofList]
    exact (List.append_eq_of_isPrefixOf?_eq_some h).symm
  · intro h
    exact ⟨rest.toList, List.isPrefixOf?_eq_some_iff_append_eq.2 h.symm, String.ofList_toList⟩

theorem toList_joined_cons (sep : Char) (a b : String) (rest : List String) :
    (joined sep (a :: b :: rest)).toList = a.toList ++ sep :: (joined sep (b :: rest)).toList := by
  simp [joined]

theorem mem_joined {sep c : Char} {parts : List String} (h : c ∈ (joined sep parts).toList) :
    c = sep ∨ ∃ part ∈ parts, c ∈ part.toList := by
  induction parts with
  | nil => simp [joined] at h
  | cons a parts ih =>
    cases parts with
    | nil =>
      refine .inr ⟨a, List.mem_cons_self, ?_⟩
      simpa [joined] using h
    | cons b parts =>
      rw [toList_joined_cons] at h
      rcases List.mem_append.1 h with h | h
      · exact .inr ⟨a, List.mem_cons_self, h⟩
      · rcases List.mem_cons.1 h with rfl | h
        · exact .inl rfl
        · rcases ih h with h | ⟨part, hp, hc⟩
          · exact .inl h
          · exact .inr ⟨part, List.mem_cons_of_mem _ hp, hc⟩

theorem joined_pieces (sep : Char) (s : String) : joined sep (pieces sep s) = s := by
  have h : ((s.toList.splitOn sep).map String.ofList).map String.toList = s.toList.splitOn sep := by
    simp [Function.comp_def]
  unfold joined pieces
  rw [h, List.intercalate_splitOn, String.ofList_toList]

theorem pieces_joined {sep : Char} {parts : List String} (hne : parts ≠ [])
    (h : ∀ part ∈ parts, sep ∉ part.toList) : pieces sep (joined sep parts) = parts := by
  have hmap : parts.map String.toList ≠ [] := by simpa using hne
  unfold joined pieces
  rw [String.toList_ofList, List.splitOn_intercalate sep (by simpa using h) hmap]
  simp [Function.comp_def]

theorem not_mem_of_mem_splitOn {sep : Char} {piece : List Char} (cs : List Char)
    (h : piece ∈ cs.splitOn sep) : sep ∉ piece := by
  by_cases hs : sep ∈ cs
  · obtain ⟨first, rest, hcs, hfirst⟩ := List.eq_append_cons_of_mem hs
    have hlt : rest.length < cs.length := by
      rw [hcs, List.length_append, List.length_cons]
      omega
    rw [hcs, List.splitOn_append_cons_self_of_not_mem hfirst] at h
    rcases List.mem_cons.1 h with rfl | h
    · exact hfirst
    · exact not_mem_of_mem_splitOn rest h
  · rw [List.splitOn_eq_singleton hs, List.mem_singleton] at h
    rwa [h]
termination_by cs.length

theorem not_mem_of_mem_pieces {sep : Char} {s part : String} (h : part ∈ pieces sep s) :
    sep ∉ part.toList := by
  obtain ⟨piece, hp, rfl⟩ := List.mem_map.1 h
  rw [String.toList_ofList]
  exact not_mem_of_mem_splitOn _ hp

/-- Equal texts are cut alike at the last separator. -/
theorem append_cons_inj {sep : Char} {as bs xs ys : List Char} (hxs : sep ∉ xs) (hys : sep ∉ ys) :
    as ++ sep :: xs = bs ++ sep :: ys ↔ as = bs ∧ xs = ys := by
  constructor
  · intro h
    -- If one beginning were longer, the other end would hold the separator.
    rcases List.append_eq_append_iff.1 h with ⟨cs, hcs, hend⟩ | ⟨cs, hcs, hend⟩
    · cases cs with
      | nil => exact ⟨by rw [hcs, List.append_nil], (List.cons.inj hend).2⟩
      | cons c cs =>
        rw [(List.cons.inj hend).2] at hxs
        exact absurd (List.mem_append_right cs List.mem_cons_self) hxs
    · cases cs with
      | nil => exact ⟨by rw [hcs, List.append_nil], (List.cons.inj hend).2.symm⟩
      | cons c cs =>
        rw [(List.cons.inj hend).2] at hys
        exact absurd (List.mem_append_right cs List.mem_cons_self) hys
  · rintro ⟨rfl, rfl⟩
    rfl

end FeatureMerge.Text
