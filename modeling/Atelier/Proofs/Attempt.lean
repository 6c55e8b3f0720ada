import Mathlib.Data.List.Forall2

/-!
# Attempts

Work that ends in a result or in an error. Steps that are taken one after the other go well when
each of them does, and else the error is that of one of them.
-/

namespace Atelier

variable {α β ε ε' : Type} {x : Except ε α} {f : α → Except ε β} {a : α} {b : β} {as : List α}
  {bs : List β} {e : ε}

/-! ## Results -/

/-- Two steps go well when each of them does. -/
theorem bind_eq_ok_iff : x >>= f = .ok b ↔ ∃ a, x = .ok a ∧ f a = .ok b := by
  cases x with
  | error e => simp [bind, Except.bind]
  | ok a => simp [bind, Except.bind]

theorem map_eq_ok_iff {g : α → β} : g <$> x = .ok b ↔ ∃ a, x = .ok a ∧ g a = b := by
  cases x with
  | error e => simp [Functor.map, Except.map]
  | ok a => simp [Functor.map, Except.map]

theorem mapError_eq_ok_iff {g : ε → ε'} : x.mapError g = .ok a ↔ x = .ok a := by
  cases x <;> simp [Except.mapError]

theorem discard_eq_ok_iff : discard x = .ok () ↔ ∃ a, x = .ok a := by
  cases x with
  | error e => simp [Functor.discard, Functor.mapConst, Except.map]
  | ok a => simp [Functor.discard, Functor.mapConst, Except.map]

theorem discard_eq_error_iff : discard x = .error e ↔ x = .error e := by
  cases x with
  | error e => simp [Functor.discard, Functor.mapConst, Except.map]
  | ok a => simp [Functor.discard, Functor.mapConst, Except.map]

/-! ## The same step for each of a list -/

theorem mapM_eq_ok_iff : as.mapM f = .ok bs ↔ List.Forall₂ (fun a b => f a = .ok b) as bs := by
  induction as generalizing bs with
  | nil =>
    rw [List.mapM_nil, List.forall₂_nil_left_iff]
    exact ⟨fun h => (Except.ok.inj h).symm, fun h => congrArg Except.ok h.symm⟩
  | cons a rest ih =>
    rw [List.mapM_cons, bind_eq_ok_iff, List.forall₂_cons_left_iff]
    constructor
    · rintro ⟨b, hb, h⟩
      obtain ⟨later, hlater, h⟩ := bind_eq_ok_iff.1 h
      exact ⟨b, later, hb, ih.1 hlater, (Except.ok.inj h).symm⟩
    · rintro ⟨b, later, hb, hlater, rfl⟩
      exact ⟨b, hb, bind_eq_ok_iff.2 ⟨later, ih.2 hlater, rfl⟩⟩

theorem exists_mapM_eq_ok_iff : (∃ bs, as.mapM f = .ok bs) ↔ ∀ a ∈ as, ∃ b, f a = .ok b := by
  simp only [mapM_eq_ok_iff]
  induction as with
  | nil => exact iff_of_true ⟨[], .nil⟩ (by simp)
  | cons a rest ih =>
    rw [List.forall_mem_cons, ← ih]
    constructor
    · rintro ⟨_, h⟩
      obtain ⟨b, later, hb, hlater, rfl⟩ := List.forall₂_cons_left_iff.1 h
      exact ⟨⟨b, hb⟩, later, hlater⟩
    · rintro ⟨⟨b, hb⟩, later, hlater⟩
      exact ⟨b :: later, .cons hb hlater⟩

/-- An error of many steps is that of one of them. -/
theorem exists_of_mapM_eq_error (h : as.mapM f = .error e) : ∃ a ∈ as, f a = .error e := by
  induction as with
  | nil => cases h
  | cons a rest ih =>
    rw [List.mapM_cons] at h
    cases ha : f a with
    | error e' =>
      obtain rfl : e' = e := by simpa [ha, bind, Except.bind] using h
      exact ⟨a, List.mem_cons_self, ha⟩
    | ok b =>
      cases hrest : rest.mapM f with
      | ok bs => simp [ha, hrest, bind, Except.bind, pure, Except.pure] at h
      | error e' =>
        obtain rfl : e' = e := by simpa [ha, hrest, bind, Except.bind] using h
        obtain ⟨a', ha', herror⟩ := ih hrest
        exact ⟨a', List.mem_cons_of_mem _ ha', herror⟩

end Atelier
