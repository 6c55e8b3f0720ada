import Atelier.Action

/-!
# Running actions

What an action does to a state: its outcome and the state that it leaves. The equations below take
an action apart along its parts, so that no proof has to look inside the monad.
-/

namespace Atelier.Action

variable {σ ε ε' α β : Type} {s s' : σ}

/-- The outcome of an action on a state, and the state that it leaves. -/
def on (x : Action σ ε α) (s : σ) : Except ε α × σ :=
  x.run.run s

@[simp] theorem on_pure (a : α) (s : σ) : (pure a : Action σ ε α).on s = (.ok a, s) := rfl

@[simp] theorem on_get (s : σ) : (get : Action σ ε σ).on s = (.ok s, s) := rfl

@[simp] theorem on_modify (f : σ → σ) (s : σ) :
    (modify f : Action σ ε Unit).on s = (.ok (), f s) := rfl

@[simp] theorem on_adapt (f : ε → ε') (x : Action σ ε α) (s : σ) :
    on (ExceptT.adapt f x) s = ((x.on s).1.mapError f, (x.on s).2) := rfl

theorem on_bind (x : Action σ ε α) (f : α → Action σ ε β) (s : σ) :
    (x >>= f).on s =
      match x.on s with
      | (.ok a, s') => (f a).on s'
      | (.error e, s') => (.error e, s') := by
  simp only [on]
  rw [ExceptT.run_bind, StateT.run_bind]
  rcases x.run.run s with ⟨e | a, s'⟩ <;> rfl

theorem on_bind_of_ok {x : Action σ ε α} {f : α → Action σ ε β} {a : α}
    (h : x.on s = (.ok a, s')) : (x >>= f).on s = (f a).on s' := by
  rw [on_bind, h]

theorem on_bind_of_error {x : Action σ ε α} {f : α → Action σ ε β} {e : ε}
    (h : x.on s = (.error e, s')) : (x >>= f).on s = (.error e, s') := by
  rw [on_bind, h]

/-- An action in two steps succeeds when both do. -/
theorem on_bind_eq_ok_iff {x : Action σ ε α} {f : α → Action σ ε β} {b : β} :
    (x >>= f).on s = (.ok b, s') ↔
      ∃ a s₁, x.on s = (.ok a, s₁) ∧ (f a).on s₁ = (.ok b, s') := by
  rw [on_bind]
  rcases x.on s with ⟨e | a, s₁⟩
  · simp
  · constructor
    · intro h
      exact ⟨a, s₁, rfl, h⟩
    · rintro ⟨a', s₂, heq, h⟩
      obtain ⟨rfl, rfl⟩ : a = a' ∧ s₁ = s₂ := by simpa using heq
      exact h

theorem on_discard (x : Action σ ε α) (s : σ) :
    on (discard x) s = ((x.on s).1.map fun _ => ⟨⟩, (x.on s).2) := by
  rw [Functor.discard, map_const, Function.comp_apply, map_eq_pure_bind, on_bind]
  rcases x.on s with ⟨e | a, s'⟩ <;> rfl

end Atelier.Action
