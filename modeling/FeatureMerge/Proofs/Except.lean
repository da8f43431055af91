/-!
# Computations that succeed

When a chain of computations gives a result, each of its links does.
-/

namespace FeatureMerge

variable {ε ε' α β : Type}

theorem bind_eq_ok_iff {x : Except ε α} {f : α → Except ε β} {b : β} :
    (x >>= f) = .ok b ↔ ∃ a, x = .ok a ∧ f a = .ok b := by
  cases x with
  | error e =>
    constructor
    · exact nofun
    · rintro ⟨a, ha, -⟩
      cases ha
  | ok a =>
    constructor
    · exact fun h => ⟨a, rfl, h⟩
    · rintro ⟨_, ⟨⟩, h⟩
      exact h

theorem mapError_eq_ok_iff {f : ε → ε'} {x : Except ε α} {a : α} :
    x.mapError f = .ok a ↔ x = .ok a := by
  cases x with
  | error e =>
    constructor
    · exact nofun
    · exact nofun
  | ok b =>
    constructor
    · rintro ⟨⟩
      rfl
    · rintro ⟨⟩
      rfl

/-! ## Traversals that change nothing -/

theorem mapM_eq_ok_self_iff {f : α → Except ε α} {as : List α} :
    as.mapM f = .ok as ↔ ∀ a ∈ as, f a = .ok a := by
  induction as with
  | nil => exact ⟨nofun, fun _ => rfl⟩
  | cons a as ih =>
    rw [List.mapM_cons, List.forall_mem_cons, ← ih]
    simp only [bind_eq_ok_iff]
    constructor
    · rintro ⟨_, ha, _, has, ⟨⟩⟩
      exact ⟨ha, has⟩
    · rintro ⟨ha, has⟩
      exact ⟨a, ha, as, has, rfl⟩

theorem optionMapM_eq_ok_self_iff {f : α → Except ε α} {o : Option α} :
    o.mapM f = .ok o ↔ ∀ a ∈ o, f a = .ok a := by
  cases o with
  | none => exact ⟨nofun, fun _ => rfl⟩
  | some a =>
    show (some <$> f a) = .ok (some a) ↔ _
    constructor
    · rintro h _ ⟨⟩
      cases hfa : f a with
      | error e =>
        rw [hfa] at h
        cases h
      | ok b =>
        rw [hfa] at h
        cases h
        rfl
    · intro h
      rw [h a rfl]
      rfl

end FeatureMerge
