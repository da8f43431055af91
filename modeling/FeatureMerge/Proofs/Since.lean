import Mathlib.Data.List.Basic

/-!
# Histories that end in one more event

A history is a list that grows at its end, and facts about it are facts about the places at
which it can be split. `append_singleton_eq_split_iff` takes the newest event away from a
split. `Since` is the temporal operator, with the law that it obeys from one event to the
next.
-/

namespace FeatureMerge

variable {α : Type}

theorem append_singleton_eq_split_iff {events before after : List α} {newest e : α} :
    events ++ [newest] = before ++ e :: after ↔
      after = [] ∧ events = before ∧ newest = e ∨
      ∃ after', after = after' ++ [newest] ∧ events = before ++ e :: after' := by
  constructor
  · intro h
    rcases List.eq_nil_or_concat after with rfl | ⟨after, last, rfl⟩
    · obtain ⟨rfl, he⟩ := List.append_inj' h rfl
      cases he
      exact .inl ⟨rfl, rfl, rfl⟩
    · rw [List.concat_eq_append, ← List.cons_append, ← List.append_assoc] at h
      obtain ⟨rfl, he⟩ := List.append_inj' h rfl
      cases he
      exact .inr ⟨after, List.concat_eq_append, rfl⟩
  · rintro (⟨rfl, rfl, rfl⟩ | ⟨after', rfl, rfl⟩)
    · rfl
    · exact List.append_assoc before (e :: after') [newest]

/-- An event satisfies `P` behind those before it, and every later one satisfies `Q`. -/
def Since (P : List α → α → Prop) (Q : α → Prop) (events : List α) : Prop :=
  ∃ before e after, events = before ++ e :: after ∧ P before e ∧ ∀ later ∈ after, Q later

namespace Since

variable {P P' : List α → α → Prop} {Q Q' : α → Prop} {events : List α} {e : α}

theorem not_nil : ¬ Since P Q [] := by
  rintro ⟨before, e, after, h, -⟩
  cases before <;> cases h

theorem append_singleton :
    Since P Q (events ++ [e]) ↔ P events e ∨ Q e ∧ Since P Q events := by
  constructor
  · rintro ⟨before, e', after, h, hp, hq⟩
    rcases append_singleton_eq_split_iff.1 h with ⟨rfl, rfl, rfl⟩ | ⟨after, rfl, rfl⟩
    · exact .inl hp
    · rw [List.forall_mem_append, List.forall_mem_singleton] at hq
      exact .inr ⟨hq.2, before, e', after, rfl, hp, hq.1⟩
  · rintro (hp | ⟨hq, before, e', after, rfl, hp, hafter⟩)
    · exact ⟨events, e, [], rfl, hp, List.forall_mem_nil _⟩
    · refine ⟨before, e', after ++ [e], List.append_assoc .., hp, ?_⟩
      rw [List.forall_mem_append, List.forall_mem_singleton]
      exact ⟨hafter, hq⟩

theorem imp (hP : ∀ before e, P before e → P' before e) (hQ : ∀ e, Q e → Q' e) :
    Since P Q events → Since P' Q' events := by
  rintro ⟨before, e, after, h, hp, hq⟩
  exact ⟨before, e, after, h, hP before e hp, fun later hl => hQ later (hq later hl)⟩

end Since

end FeatureMerge
