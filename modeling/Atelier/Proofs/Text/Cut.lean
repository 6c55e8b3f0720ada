import Atelier.Text.Split
import Mathlib.Data.List.Infix

/-!
# Where a text is cut

`split` finds separators from left to right. So the pieces it gives are those that can be put
together again without a separator being found too early: `Closes` says so of one piece, `IsCut` of
a whole list, and `split_eq_iff` says that nothing else decides the pieces.

For a separator that can overlap with itself a piece may hold no separator and still not close: what
stands at its end can begin one.
-/

namespace Atelier.Text

variable {α : Type} {separator text piece rest : List α} {pieces : List (List α)}

/-- Whether a separator behind a piece is the first one there. -/
def Closes (separator piece : List α) : Prop :=
  ¬ separator <:+: piece ++ separator.dropLast

/-- Whether pieces come back when they are joined and cut again. -/
def IsCut (separator : List α) : List (List α) → Prop
  | [] => False
  | [last] => ¬ separator <:+: last
  | piece :: rest => Closes separator piece ∧ IsCut separator rest

/-! ## Pieces that close -/

theorem closes_nil (h : separator ≠ []) : Closes separator [] := by
  intro hin
  have hle := hin.length_le
  have hpos := List.length_pos_iff.2 h
  simp only [List.nil_append, List.length_dropLast] at hle
  omega

theorem Closes.absent (h : Closes separator piece) : ¬ separator <:+: piece :=
  fun hin => h (hin.trans (List.prefix_append _ _).isInfix)

theorem Closes.tail {c : α} (h : Closes separator (c :: piece)) : Closes separator piece :=
  fun hin => h (List.infix_cons hin)

/-- In front of the end of a piece that closes, no separator starts. -/
theorem Closes.no_start {c : α} (h : Closes separator (c :: piece)) (rest : List α) :
    ¬ separator <+: c :: (piece ++ separator ++ rest) := by
  intro hp
  have front : c :: piece ++ separator.dropLast <+: c :: (piece ++ separator ++ rest) := by
    rw [List.append_assoc, ← List.cons_append]
    exact (List.prefix_append_right_inj _).2
      ((List.dropLast_prefix _).trans (List.prefix_append _ _))
  refine h (List.prefix_of_prefix_length_le hp front ?_).isInfix
  simp only [List.length_append, List.length_cons, List.length_dropLast]
  omega

theorem closes_cons {c : α} (hp : ¬ separator <+: c :: (piece ++ separator ++ rest))
    (h : Closes separator piece) : Closes separator (c :: piece) := by
  intro hin
  rcases List.infix_cons_iff.1 hin with hfront | hlater
  · refine hp (hfront.trans ?_)
    rw [List.append_assoc]
    exact List.cons_prefix_cons.2 ⟨rfl, (List.prefix_append_right_inj _).2
      ((List.dropLast_prefix _).trans (List.prefix_append _ _))⟩
  · exact h hlater

/-! ## Pieces put together -/

theorem isCut_cons (h : pieces ≠ []) :
    IsCut separator (piece :: pieces) ↔ Closes separator piece ∧ IsCut separator pieces := by
  obtain ⟨next, rest, rfl⟩ := List.exists_cons_of_ne_nil h
  exact Iff.rfl

/-- A cut said of its pieces alone: none holds a separator, and all but the last close. -/
theorem isCut_iff :
    IsCut separator pieces ↔ pieces ≠ [] ∧ (∀ piece ∈ pieces, ¬ separator <:+: piece) ∧
      ∀ piece ∈ pieces.dropLast, Closes separator piece := by
  induction pieces with
  | nil => simp [IsCut]
  | cons piece rest ih =>
    by_cases hrest : rest = []
    · subst hrest
      simp [IsCut]
    · rw [isCut_cons hrest, ih, List.dropLast_cons_of_ne_nil hrest, List.forall_mem_cons,
        List.forall_mem_cons]
      constructor
      · rintro ⟨hcloses, -, habsent, hrest'⟩
        exact ⟨List.cons_ne_nil _ _, ⟨hcloses.absent, habsent⟩, hcloses, hrest'⟩
      · rintro ⟨-, ⟨-, habsent⟩, hcloses, hrest'⟩
        exact ⟨hcloses, hrest, habsent, hrest'⟩

/-- A single character cannot overlap with itself. -/
theorem isCut_singleton_iff {c : α} :
    IsCut [c] pieces ↔ pieces ≠ [] ∧ ∀ piece ∈ pieces, c ∉ piece := by
  have hclear : ∀ piece : List α, ¬ [c] <:+: piece ↔ c ∉ piece := by
    intro piece
    rw [List.singleton_infix_iff]
  simp only [isCut_iff, Closes, List.dropLast_singleton, List.append_nil, hclear]
  constructor
  · rintro ⟨hne, habsent, -⟩
    exact ⟨hne, habsent⟩
  · rintro ⟨hne, habsent⟩
    exact ⟨hne, habsent, fun piece hpiece => habsent piece (List.dropLast_subset _ hpiece)⟩

theorem infix_intercalate (h : piece ∈ pieces) : piece <:+: separator.intercalate pieces := by
  induction pieces with
  | nil => simp at h
  | cons first rest ih =>
    cases rest with
    | nil => simp_all
    | cons next later =>
      rw [List.intercalate_cons_cons]
      rcases List.mem_cons.1 h with rfl | h
      · rw [List.append_assoc]
        exact (List.prefix_append _ _).isInfix
      · exact (ih h).trans (List.suffix_append _ _).isInfix

theorem intercalate_append {more : List (List α)} (h : pieces ≠ []) (hmore : more ≠ []) :
    separator.intercalate (pieces ++ more) =
      separator.intercalate pieces ++ separator ++ separator.intercalate more := by
  induction pieces with
  | nil => exact absurd rfl h
  | cons piece rest ih =>
    by_cases hrest : rest = []
    · subst hrest
      rw [List.singleton_append, List.intercalate_cons_of_ne_nil hmore, List.intercalate_singleton]
    · rw [List.cons_append, List.intercalate_cons_of_ne_nil (by simp [hrest]), ih hrest,
        List.intercalate_cons_of_ne_nil hrest]
      simp

/-- A text ends as the last of its pieces does. -/
theorem suffix_intercalate (separator last : List α) (front : List (List α)) :
    last <:+ separator.intercalate (front ++ [last]) := by
  by_cases hfront : front = []
  · subst hfront
    simp
  · rw [intercalate_append hfront (List.cons_ne_nil _ _), List.intercalate_singleton]
    exact List.suffix_append _ _

theorem isCut_append {more : List (List α)} (h : ∀ piece ∈ pieces, Closes separator piece)
    (hmore : IsCut separator more) : IsCut separator (pieces ++ more) := by
  induction pieces with
  | nil => exact hmore
  | cons piece rest ih =>
    rw [List.forall_mem_cons] at h
    rw [List.cons_append, isCut_cons (List.append_ne_nil_of_right_ne_nil _ (isCut_iff.1 hmore).1)]
    exact ⟨h.1, ih h.2⟩

/-! ## Reading from the left -/

variable [DecidableEq α]

@[simp] theorem split_nil : split separator [] = [[]] := rfl

/-- The characters of a separator that was found are passed over. -/
theorem splitAfter_eq_split_drop (skip : Nat) (text : List α) :
    splitAfter separator skip text = split separator (text.drop skip) := by
  induction skip generalizing text with
  | zero => rfl
  | succ skip ih =>
    cases text with
    | nil => rfl
    | cons c rest => simpa [splitAfter] using ih rest

theorem split_append_self (h : separator ≠ []) (rest : List α) :
    split separator (separator ++ rest) = [] :: split separator rest := by
  obtain ⟨c, tail, rfl⟩ := List.exists_cons_of_ne_nil h
  have found : (c :: tail).isPrefixOf (c :: (tail ++ rest)) = true := by simp
  rw [List.cons_append, split, splitAfter, if_pos found, splitAfter_eq_split_drop]
  simp

theorem split_cons {c : α} (h : ¬ separator <+: c :: rest) :
    split separator (c :: rest) = extend c (split separator rest) := by
  have absent : ¬ separator.isPrefixOf (c :: rest) = true := by simpa using h
  rw [split, splitAfter, if_neg absent, split]

/-- A text is empty, starts with a separator, or starts with a character that is in none. -/
theorem split_induction {motive : List α → Prop} (h : separator ≠ []) (empty : motive [])
    (found : ∀ rest, motive rest → motive (separator ++ rest))
    (passed : ∀ c rest, ¬ separator <+: c :: rest → motive rest → motive (c :: rest))
    (text : List α) : motive text := by
  -- A separator takes several characters at once, so the induction is on the length.
  induction hn : text.length using Nat.strongRecOn generalizing text with
  | ind n ih =>
    cases text with
    | nil => exact empty
    | cons c rest =>
      by_cases hp : separator <+: c :: rest
      · obtain ⟨tail, htail⟩ := hp
        have hpos := List.length_pos_iff.2 h
        have hlen := congrArg List.length htail
        rw [List.length_append] at hlen
        rw [← htail]
        exact found tail (ih tail.length (by omega) tail rfl)
      · rw [List.length_cons] at hn
        exact passed c rest hp (ih rest.length (by omega) rest rfl)

theorem split_ne_nil (h : separator ≠ []) (text : List α) : split separator text ≠ [] := by
  induction text using split_induction h with
  | empty => simp
  | found rest _ => simp [split_append_self h]
  | passed c rest hp _ =>
    rw [split_cons hp]
    unfold extend
    split <;> simp

/-! ## The cut of a text -/

theorem split_append (h : separator ≠ []) (hc : Closes separator piece) (rest : List α) :
    split separator (piece ++ separator ++ rest) = piece :: split separator rest := by
  induction piece with
  | nil => simpa using split_append_self h rest
  | cons c piece ih =>
    rw [List.cons_append, List.cons_append, split_cons (hc.no_start rest), ih hc.tail]
    rfl

theorem split_of_not_infix (h : ¬ separator <:+: piece) : split separator piece = [piece] := by
  induction piece with
  | nil => rfl
  | cons c piece ih =>
    rw [List.infix_cons_iff, not_or] at h
    rw [split_cons h.1, ih h.2]
    rfl

theorem intercalate_split (h : separator ≠ []) (text : List α) :
    separator.intercalate (split separator text) = text := by
  induction text using split_induction h with
  | empty => simp
  | found rest ih =>
    rw [split_append_self h, List.intercalate_cons_of_ne_nil (split_ne_nil h rest), ih]
    simp
  | passed c rest hp ih =>
    rw [split_cons hp]
    match hs : split separator rest with
    | [] => exact absurd hs (split_ne_nil h rest)
    | [last] => simpa [extend, hs] using ih
    | piece :: next :: later => simpa [extend, hs, List.intercalate_cons_cons] using ih

theorem isCut_split (h : separator ≠ []) (text : List α) :
    IsCut separator (split separator text) := by
  induction text using split_induction h with
  | empty => simpa [IsCut] using h
  | found rest ih =>
    rw [split_append_self h, isCut_cons (split_ne_nil h rest)]
    exact ⟨closes_nil h, ih⟩
  | passed c rest hp ih =>
    have joined := intercalate_split h rest
    rw [split_cons hp]
    match hs : split separator rest with
    | [] => exact absurd hs (split_ne_nil h rest)
    | [last] =>
      rw [hs] at ih joined
      obtain rfl : last = rest := by simpa using joined
      exact fun hin => (List.infix_cons_iff.1 hin).elim hp ih
    | piece :: next :: later =>
      rw [hs] at ih joined
      -- What is behind the character begins with the rest of the piece and a separator.
      rw [List.intercalate_cons_cons] at joined
      rw [← joined] at hp
      exact ⟨closes_cons hp ih.1, ih.2⟩

theorem split_intercalate (h : separator ≠ []) (hc : IsCut separator pieces) :
    split separator (separator.intercalate pieces) = pieces := by
  induction pieces with
  | nil => exact hc.elim
  | cons piece rest ih =>
    cases rest with
    | nil => simpa using split_of_not_infix hc
    | cons next later =>
      rw [List.intercalate_cons_cons, split_append h hc.1, ih hc.2]

/-- **The pieces of a text are the one cut of it.** -/
theorem split_eq_iff (h : separator ≠ []) :
    split separator text = pieces ↔
      IsCut separator pieces ∧ separator.intercalate pieces = text := by
  constructor
  · rintro rfl
    exact ⟨isCut_split h text, intercalate_split h text⟩
  · rintro ⟨hc, rfl⟩
    exact split_intercalate h hc

/-- A separator between two texts is found if every piece of the first text closes. -/
theorem split_append_separator (h : separator ≠ [])
    (hcloses : ∀ piece ∈ split separator text, Closes separator piece) (rest : List α) :
    split separator (text ++ separator ++ rest) =
      split separator text ++ split separator rest := by
  rw [split_eq_iff h]
  refine ⟨isCut_append hcloses (isCut_split h rest), ?_⟩
  rw [intercalate_append (split_ne_nil h text) (split_ne_nil h rest), intercalate_split h,
    intercalate_split h]

/-- A text ends as its last piece does, if there is something in it. -/
theorem getLast?_of_split {last : List α} (h : separator ≠ [])
    (hlast : (split separator text).getLast? = some last) (hne : last ≠ []) :
    text.getLast? = last.getLast? := by
  obtain ⟨front, hfront⟩ := List.getLast?_eq_some_iff.1 hlast
  obtain ⟨start, hstart⟩ := suffix_intercalate separator last front
  have htext := intercalate_split h text
  rw [hfront, ← hstart] at htext
  rw [← htext]
  exact List.getLast?_append_of_ne_nil _ hne

theorem pieces_eq_iff {separator text : String} {parts : List String} :
    Text.pieces separator text = parts ↔
      split separator.toList text.toList = parts.map String.toList := by
  rw [Text.pieces]
  constructor
  · rintro rfl
    simp [Function.comp_def]
  · intro h
    simp [h, Function.comp_def]

theorem infix_of_mem_pieces {separator text s : String} (hne : separator.toList ≠ [])
    (h : s ∈ Text.pieces separator text) : s.toList <:+: text.toList := by
  have hsplit := pieces_eq_iff.1 (Eq.refl (Text.pieces separator text))
  have hin : s.toList <:+: separator.toList.intercalate (split separator.toList text.toList) :=
    infix_intercalate (hsplit ▸ List.mem_map_of_mem h)
  rwa [intercalate_split hne] at hin

end Atelier.Text
