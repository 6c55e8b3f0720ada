import Mathlib.Data.List.TakeWhile

/-!
# Words

A word is a text of characters of one kind. Where a text goes on with a character of another kind,
the word in front is known, and so is what comes behind it.
-/

namespace Atelier.Text

variable {p : Char → Bool} {word word' after after' : List Char} {c : Char}

/-- Whether all characters of a text are of one kind. -/
def IsWord (p : Char → Bool) (word : List Char) : Prop :=
  ∀ c ∈ word, p c = true

/-- Whether a text does not go on with a character of a kind. -/
def EndsWord (p : Char → Bool) (after : List Char) : Prop :=
  ∀ c ∈ after.head?, p c = false

theorem endsWord_nil : EndsWord p [] := by
  simp [EndsWord]

theorem endsWord_cons : EndsWord p (c :: after) ↔ p c = false := by
  simp [EndsWord]

theorem IsWord.append (h : IsWord p word) (h' : IsWord p word') : IsWord p (word ++ word') :=
  List.forall_mem_append.2 ⟨h, h'⟩

/-- A text without some character is a word that ends at this character. -/
theorem isWord_of_not_mem {text : List Char} (h : c ∉ text) : IsWord (· != c) text := by
  intro a ha
  rw [bne_iff_ne]
  rintro rfl
  exact h ha

theorem endsWord_mark (c : Char) (after : List Char) : EndsWord (· != c) (c :: after) := by
  rw [endsWord_cons, bne_self_eq_false]

theorem takeWhile_append (h : IsWord p word) (hafter : EndsWord p after) :
    (word ++ after).takeWhile p = word := by
  rw [List.takeWhile_append_of_pos h]
  cases after with
  | nil => simp
  | cons c rest => rw [List.takeWhile_cons_of_neg (by simp [hafter c rfl]), List.append_nil]

/-- **A word is known from a text that starts with it**, and so is what comes behind. -/
theorem word_append_inj (hword : IsWord p word) (hword' : IsWord p word')
    (hafter : EndsWord p after) (hafter' : EndsWord p after')
    (h : word ++ after = word' ++ after') : word = word' ∧ after = after' := by
  have hwords : word = word' := by
    rw [← takeWhile_append hword hafter, h, takeWhile_append hword' hafter']
  rw [hwords, List.append_cancel_left_eq] at h
  exact ⟨hwords, h⟩

end Atelier.Text
