import Mathlib.Logic.Basic

namespace Framework

variable {ε α β : Type} {x : Except ε α} {f : α → Except ε β}

/-- What `do` returns has gone through both steps. -/
theorem bind_eq_ok {b : β} : (x >>= f) = .ok b ↔ ∃ a, x = .ok a ∧ f a = .ok b := by
  constructor
  · intro h
    cases x with
    | error e => cases h
    | ok a => exact ⟨a, rfl, h⟩
  · intro h
    obtain ⟨a, rfl, hf⟩ := h
    exact hf

theorem bind_eq_error {e : ε} :
    (x >>= f) = .error e ↔ x = .error e ∨ ∃ a, x = .ok a ∧ f a = .error e := by
  constructor
  · intro h
    cases x with
    | error e' =>
      cases h
      exact Or.inl rfl
    | ok a => exact Or.inr ⟨a, rfl, h⟩
  · intro h
    cases h with
    | inl hx => rw [hx]; rfl
    | inr hf =>
      obtain ⟨a, rfl, hf⟩ := hf
      exact hf

theorem map_except_bind {γ : Type} {g : β → γ} :
    (x >>= f).map g = x.bind fun a => (f a).map g := by
  cases x <;> rfl

variable {g : α → β}

theorem map_eq_ok {b : β} : (do let a ← x; pure (g a)) = .ok b ↔ ∃ a, x = .ok a ∧ b = g a := by
  refine bind_eq_ok.trans (exists_congr fun a => and_congr_right fun _ => ?_)
  exact ⟨fun h => (Except.ok.inj h).symm, fun h => congrArg Except.ok h.symm⟩

theorem map_eq_error {e : ε} : (do let a ← x; pure (g a)) = .error e ↔ x = .error e := by
  constructor
  · intro h
    cases bind_eq_error.mp h with
    | inl hx => exact hx
    | inr hpure =>
      obtain ⟨a, _, hpure⟩ := hpure
      cases hpure
  · intro h
    exact bind_eq_error.mpr (Or.inl h)

end Framework
