import Atelier.Bundle.Basic
import Atelier.Proofs.Text.Cut

/-!
# Markers in a text

Where `###` and `##!` can be found when texts are put together. `##!` cannot overlap with itself, so
a text closes for it when it holds none. `###` can, so the last character counts as well.
-/

namespace Atelier.Text

variable {separator front back : List Char} {c : Char}

/-- A character that is not in a separator stops it. -/
theorem prefix_append_cons_iff (h : c ∉ separator) :
    separator <+: front ++ c :: back ↔ separator <+: front := by
  refine ⟨fun hp => ?_, fun hp => hp.trans (List.prefix_append _ _)⟩
  rcases List.prefix_or_prefix_of_prefix hp (List.prefix_append _ _) with hshort | hlong
  · exact hshort
  · obtain ⟨tail, rfl⟩ := hlong
    rw [List.prefix_append_right_inj] at hp
    cases tail with
    | nil => simp
    | cons d tail =>
      obtain ⟨rfl, -⟩ := List.cons_prefix_cons.1 hp
      simp at h

/-- Nothing is found across a character that is not in the separator. -/
theorem infix_append_cons_iff (h : c ∉ separator) :
    separator <:+: front ++ c :: back ↔ separator <:+: front ∨ separator <:+: back := by
  induction front with
  | nil =>
    rw [List.nil_append, List.infix_cons_iff, ← List.nil_append (c :: back),
      prefix_append_cons_iff h]
    simp
  | cons d front ih =>
    rw [List.cons_append, List.infix_cons_iff, ih, ← List.cons_append, prefix_append_cons_iff h,
      List.infix_cons_iff, or_assoc]

end Atelier.Text

namespace Atelier.Bundle

open Text

variable {path body text : List Char}

/-- Whether no marker is found in a text. -/
def IsUnmarked (text : String) : Prop :=
  ¬ recordMarker.toList <:+: text.toList ∧ ¬ bodyMarker.toList <:+: text.toList

/-- Whether the last character of a text is a `#`. -/
def EndsInHash (text : String) : Prop :=
  text.toList.getLast? = some '#'

instance : DecidablePred IsUnmarked := fun _ => inferInstanceAs (Decidable (_ ∧ _))

instance : DecidablePred EndsInHash := fun _ => inferInstanceAs (Decidable (_ = _))

theorem toList_recordMarker : recordMarker.toList = ['#', '#', '#'] := rfl

theorem toList_bodyMarker : bodyMarker.toList = ['#', '#', '!'] := rfl

theorem recordMarker_ne_nil : recordMarker.toList ≠ [] := by simp [toList_recordMarker]

theorem bodyMarker_ne_nil : bodyMarker.toList ≠ [] := by simp [toList_bodyMarker]

/-! ## Behind a text -/

/-- Two more `#` complete a `###` only if there was one already or the text ends in `#`. -/
theorem recordMarker_infix_append_hashes :
    recordMarker.toList <:+: text ++ ['#', '#'] ↔
      recordMarker.toList <:+: text ∨ text.getLast? = some '#' := by
  -- What stands at the end is seen from there.
  rw [toList_recordMarker, ← List.reverse_infix, ← @List.reverse_infix _ _ text,
    ← List.head?_reverse, List.reverse_append]
  generalize text.reverse = back
  cases back with
  | nil => decide
  | cons c rest =>
    simp only [List.reverse_cons, List.reverse_nil, List.nil_append, List.cons_append,
      List.infix_cons_iff, List.cons_prefix_cons, List.nil_prefix, List.head?_cons,
      Option.some.injEq, true_and, and_true, eq_comm (a := c)]
    tauto

theorem closes_recordMarker_iff :
    Closes recordMarker.toList text ↔
      ¬ recordMarker.toList <:+: text ∧ text.getLast? ≠ some '#' := by
  rw [← not_or, ← recordMarker_infix_append_hashes]
  rfl

theorem closes_bodyMarker_iff :
    Closes bodyMarker.toList text ↔ ¬ bodyMarker.toList <:+: text := by
  rw [Closes, toList_bodyMarker, ← List.reverse_infix, ← @List.reverse_infix _ _ text]
  simp [List.infix_cons_iff, List.cons_prefix_cons]

/-! ## Across a path and a body -/

/-- The `!` between a path and a body keeps them apart, but the `##` in front of it does not. -/
theorem recordMarker_infix_record_iff :
    recordMarker.toList <:+: path ++ bodyMarker.toList ++ body ↔
      (recordMarker.toList <:+: path ∨ path.getLast? = some '#') ∨
        recordMarker.toList <:+: body := by
  have apart : '!' ∉ recordMarker.toList := by decide
  have parts : path ++ bodyMarker.toList ++ body = path ++ ['#', '#'] ++ '!' :: body := by
    simp [toList_bodyMarker]
  rw [parts, infix_append_cons_iff apart, recordMarker_infix_append_hashes]

theorem getLast?_record :
    (path ++ bodyMarker.toList ++ body).getLast? = some '#' ↔ body.getLast? = some '#' := by
  rcases List.eq_nil_or_concat' body with rfl | ⟨init, c, rfl⟩
  · simp [toList_bodyMarker]
  · rw [← List.append_assoc, List.getLast?_concat, List.getLast?_concat]

/-- A piece is cut in two where it holds its one `##!`. -/
theorem split_bodyMarker_eq_pair_iff :
    split bodyMarker.toList text = [path, body] ↔
      text = path ++ bodyMarker.toList ++ body ∧
        ¬ bodyMarker.toList <:+: path ∧ ¬ bodyMarker.toList <:+: body := by
  rw [split_eq_iff bodyMarker_ne_nil, List.intercalate_cons_cons, List.intercalate_singleton,
    isCut_cons (List.cons_ne_nil _ _), closes_bodyMarker_iff, and_comm, eq_comm]
  rfl

end Atelier.Bundle
