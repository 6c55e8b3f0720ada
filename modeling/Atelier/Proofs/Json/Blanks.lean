import Atelier.Json.Printer
import Atelier.Proofs.Number.Reading

/-!
# Blanks in JSON texts

Outside of strings, blanks say nothing. To leave them out of a text, it is read from the left, and
all that has to be known on the way is whether the text is inside a string, and there, whether a
backslash came last. What is left of the pretty form of a tree is its compact form
(`withoutBlanks_pretty`), whatever blanks, quotes and brackets there are in its strings.
-/

namespace Atelier.Json

variable {text after : List Char}

/-- What has to be known of the text on the left. -/
inductive Side where
  | outside
  | inside
  | behindBackslash

/-- A text without the blanks outside of its strings, read from a place in it. -/
def squeeze : Side → List Char → List Char
  | _, [] => []
  | .outside, c :: rest =>
    if c.isWhitespace then squeeze .outside rest
    else c :: squeeze (if c = '"' then .inside else .outside) rest
  | .inside, c :: rest =>
    c :: squeeze (if c = '"' then .outside else if c = '\\' then .behindBackslash else .inside) rest
  | .behindBackslash, c :: rest => c :: squeeze .inside rest

/-- A text without the blanks outside of its strings. -/
def withoutBlanks (text : List Char) : List Char :=
  squeeze .outside text

/-! ## Outside of strings -/

/-- Whether a character outside of strings neither is left out nor starts a string. -/
def IsPlain (c : Char) : Prop :=
  c.isWhitespace = false ∧ c ≠ '"'

instance (c : Char) : Decidable (IsPlain c) :=
  inferInstanceAs (Decidable (_ ∧ _))

theorem squeeze_blank {c : Char} (h : c.isWhitespace = true) :
    squeeze .outside (c :: after) = squeeze .outside after := by
  rw [squeeze, if_pos h]

theorem squeeze_plain {c : Char} (h : IsPlain c) :
    squeeze .outside (c :: after) = c :: squeeze .outside after := by
  rw [squeeze, h.1, if_neg (by simp), if_neg h.2]

theorem squeeze_append_of_plain (h : ∀ c ∈ text, IsPlain c) :
    squeeze .outside (text ++ after) = text ++ squeeze .outside after := by
  induction text with
  | nil => rfl
  | cons c rest ih =>
    obtain ⟨hc, hrest⟩ := List.forall_mem_cons.1 h
    rw [List.cons_append, squeeze_plain hc, ih hrest, List.cons_append]

theorem squeeze_replicate (n : Nat) :
    squeeze .outside (List.replicate n ' ' ++ after) = squeeze .outside after := by
  induction n with
  | zero => rfl
  | succ n ih => rw [List.replicate_succ, List.cons_append, squeeze_blank (by decide), ih]

theorem squeeze_newlineBefore (depth : Nat) :
    squeeze .outside (newlineBefore depth after) = squeeze .outside after := by
  rw [newlineBefore, squeeze_blank (by decide), squeeze_replicate]

theorem isPlain_of_isNumberChar {c : Char} (h : Number.isNumberChar c = true) : IsPlain c := by
  constructor
  · by_contra hblank
    simp only [Char.isWhitespace, Bool.not_eq_false, Bool.or_eq_true, decide_eq_true_eq] at hblank
    rcases hblank with ((rfl | rfl) | rfl) | rfl
    all_goals cases h
  · rintro rfl
    cases h

theorem isPlain_null : ∀ c ∈ "null".toList, IsPlain c := by
  have hnull : "null".toList = ['n', 'u', 'l', 'l'] := rfl
  simp [hnull, IsPlain]

theorem squeeze_numberText (x : Float) :
    squeeze .outside (numberText x ++ after) = numberText x ++ squeeze .outside after := by
  apply squeeze_append_of_plain
  intro c hc
  rw [numberText] at hc
  cases hx : Number.literal? x with
  | none =>
    rw [hx] at hc
    exact isPlain_null c hc
  | some s =>
    rw [hx] at hc
    exact isPlain_of_isNumberChar (Number.literal?_isNumberChar hx c hc)

/-! ## Strings -/

theorem squeeze_inside_append (h : ∀ c ∈ text, c ≠ '"' ∧ c ≠ '\\') :
    squeeze .inside (text ++ after) = text ++ squeeze .inside after := by
  induction text with
  | nil => rfl
  | cons c rest ih =>
    obtain ⟨⟨hquote, hbackslash⟩, hrest⟩ := List.forall_mem_cons.1 h
    simp [squeeze, hquote, hbackslash, ih hrest]

theorem digitChar_plain : ∀ n < 16, Nat.digitChar n ≠ '"' ∧ Nat.digitChar n ≠ '\\' := by
  decide

/-- No character that is written in a string ends it. -/
theorem squeeze_escaped (c : Char) :
    squeeze .inside (escaped c ++ after) = escaped c ++ squeeze .inside after := by
  unfold escaped escape?
  split
  case h_8 =>
    split
    · rename_i hcontrol
      have hhigh := digitChar_plain (c.toNat / 16) (by omega)
      have hlow := digitChar_plain (c.toNat % 16) (by omega)
      simp [squeeze, hhigh, hlow]
    · exact squeeze_inside_append (by simp_all)
  all_goals rfl

theorem squeeze_quoted (s : String) :
    squeeze .outside (quoted s ++ after) = quoted s ++ squeeze .outside after := by
  have hinside : ∀ cs : List Char, squeeze .inside (cs.flatMap escaped ++ '"' :: after) =
      cs.flatMap escaped ++ '"' :: squeeze .outside after := by
    intro cs
    induction cs with
    | nil => rfl
    | cons c rest ih =>
      rw [List.flatMap_cons, List.append_assoc, squeeze_escaped, ih, List.append_assoc]
  simp only [quoted, List.cons_append, List.append_assoc, List.nil_append]
  rw [squeeze, if_neg (by decide), if_pos rfl, hinside]

/-! ## Trees -/

mutual

/-- What is left of the pretty form of a tree is its compact form. -/
theorem squeeze_prettyBefore (depth : Nat) (tree : Json) (after : List Char) :
    squeeze .outside (prettyBefore depth tree after) =
      tree.compactBefore (squeeze .outside after) := by
  match tree with
  | null => rw [prettyBefore, compactBefore, squeeze_append_of_plain isPlain_null]
  | number x => rw [prettyBefore, compactBefore, squeeze_numberText]
  | string s => rw [prettyBefore, compactBefore, squeeze_quoted]
  | array [] =>
    rw [prettyBefore, compactBefore, squeeze_plain (by decide), squeeze_plain (by decide)]
  | array (item :: rest) =>
    rw [prettyBefore, compactBefore, squeeze_plain (by decide), squeeze_newlineBefore,
      squeeze_prettyBefore, squeeze_prettyItems]
  | object [] =>
    rw [prettyBefore, compactBefore, squeeze_plain (by decide), squeeze_plain (by decide)]
  | object ((key, value) :: rest) =>
    rw [prettyBefore, compactBefore, squeeze_plain (by decide), squeeze_newlineBefore,
      squeeze_quoted, squeeze_plain (by decide), squeeze_blank (by decide), squeeze_prettyBefore,
      squeeze_prettyFields]

theorem squeeze_prettyItems (depth : Nat) (items : List Json) (after : List Char) :
    squeeze .outside (prettyItems depth items after) =
      compactItems items (squeeze .outside after) := by
  match items with
  | [] => rw [prettyItems, compactItems, squeeze_newlineBefore, squeeze_plain (by decide)]
  | item :: rest =>
    rw [prettyItems, compactItems, squeeze_plain (by decide), squeeze_newlineBefore,
      squeeze_prettyBefore, squeeze_prettyItems]

theorem squeeze_prettyFields (depth : Nat) (fields : List (String × Json)) (after : List Char) :
    squeeze .outside (prettyFields depth fields after) =
      compactFields fields (squeeze .outside after) := by
  match fields with
  | [] => rw [prettyFields, compactFields, squeeze_newlineBefore, squeeze_plain (by decide)]
  | (key, value) :: rest =>
    rw [prettyFields, compactFields, squeeze_plain (by decide), squeeze_newlineBefore,
      squeeze_quoted, squeeze_plain (by decide), squeeze_blank (by decide), squeeze_prettyBefore,
      squeeze_prettyFields]

end

/-- **The pretty form differs from the compact form by blanks outside of strings only.** -/
theorem withoutBlanks_pretty (tree : Json) : withoutBlanks tree.pretty = tree.compact :=
  squeeze_prettyBefore 0 tree []

-- The quote behind the backslash does not end the string, so the blank behind it stays.
example : withoutBlanks "[ \" \\\" \", 1 ]".toList = "[\" \\\" \",1]".toList := by decide

end Atelier.Json
