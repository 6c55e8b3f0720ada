import Atelier.Proofs.Drawing.View
import Atelier.Proofs.Json.Blanks
import Atelier.Proofs.Json.Sorting

/-!
# The three forms of a drawing

A drawing can be had as compact text, as pretty text and as a tree with sorted keys. All three come
from one tree, in which no object has a key twice, so they say the same: the texts differ by blanks,
and the trees by the order of their fields.
-/

namespace Atelier

open Json

/-! ## The keys of a drawing -/

namespace Form

/-- All keys that a form can have in a drawing are different. -/
theorem nodup_keys {α κ : Type} (form : Form α κ) :
    ("type" :: form.named.map Prod.fst ++ ["stroke", "fill", "items", "qualifiers"]).Nodup := by
  cases form
  all_goals
    simp only [named, List.map_cons, List.map_nil]
    decide

end Form

namespace View

variable {P : List (String × Json) → Prop}

theorem keys_textField (name : String) (c : Option String) :
    ((textField name c).map Prod.fst).Sublist [name] := by
  cases c with
  | none => exact List.nil_sublist _
  | some text => exact List.Sublist.refl _

theorem keys_qualifierField (qualifiers : List Qualifier) :
    ((Shape.qualifierField qualifiers).map Prod.fst).Sublist ["qualifiers"] := by
  cases qualifiers with
  | nil => exact List.nil_sublist _
  | cons q rest => exact List.Sublist.refl _

theorem keys_shownFields (form : Form (Option FiniteFloat) String) :
    form.shownFields.map Prod.fst = form.named.map Prod.fst ++
      (textField "stroke" form.stroke?).map Prod.fst ++
        (textField "fill" form.fill?).map Prod.fst := by
  rw [Form.shownFields, List.map_append, List.map_append, List.map_map]
  rfl

/-- No key of a drawing is there twice: those that are left out leave a part of all keys. -/
theorem nodup_keys (form : Form (Option FiniteFloat) String) (items : Json)
    (qualifiers : List Qualifier) :
    ((("type", Json.string form.tag) :: form.shownFields ++
      ("items", items) :: Shape.qualifierField qualifiers).map Prod.fst).Nodup := by
  have hcolors := (keys_textField "stroke" form.stroke?).append
    (keys_textField "fill" form.fill?)
  have hend := hcolors.append ((keys_qualifierField qualifiers).cons_cons "items")
  refine List.Nodup.sublist ?_ form.nodup_keys
  simp only [List.map_cons, List.map_append, List.cons_append, keys_shownFields,
    List.append_assoc]
  exact ((List.append_sublist_append_left _).2 (by simpa using hend)).cons_cons "type"

/-! ### Objects inside of a drawing -/

theorem everywhere_numberTree (x : Option FiniteFloat) : (numberTree x).Everywhere P := by
  cases x with
  | none => trivial
  | some x => trivial

theorem everywhere_words (words : List String) :
    (Json.array (words.map Json.string)).Everywhere P := by
  simp [Everywhere, everywhereItems_iff]

mutual

/-- **No object in a drawing has a key twice.** -/
theorem distinctKeys_json : (v : View) → v.json.DistinctKeys
  | ⟨form, items, qualifiers⟩ => by
    have hitems := distinctKeys_jsonItems items
    refine ⟨nodup_keys form _ qualifiers, ?_⟩
    rw [everywhereFields_iff, List.cons_append, List.forall_mem_cons, List.forall_mem_append,
      List.forall_mem_cons]
    exact ⟨trivial, forall_shownFields everywhere_numberTree (fun _ => trivial) form, hitems,
      forall_qualifierField everywhere_words qualifiers⟩

theorem distinctKeys_jsonItems : (items : List View) →
    EverywhereItems Distinct (jsonItems items)
  | [] => trivial
  | item :: rest => ⟨distinctKeys_json item, distinctKeys_jsonItems rest⟩

end

end View

/-! ## Printing -/

namespace Shape

/-- **The three forms say the same.** They fail together, as the first value in the drawing that
fails. Or all are made from one tree: the pretty text is the compact text with blanks outside of
strings, and the last form is the same tree, and so has the same text, with all keys in the order of
their bytes. -/
theorem forms_agree (s : Shape) :
    (∃ cause, FailsFirst s.document cause ∧ s.toJson = .error (.division cause) ∧
        s.toPrettyJson = .error (.division cause) ∧ s.toSortedJson = .error (.division cause)) ∨
      ∃ tree text pretty sorted, s.json = .ok tree ∧ text = .ofList tree.compact ∧
        s.toJson = .ok text ∧ s.toPrettyJson = .ok pretty ∧ s.toSortedJson = .ok sorted ∧
        String.ofList (withoutBlanks pretty.toList) = text ∧
        Reordered tree sorted ∧ sorted.SortedKeys ∧
        ∀ other, Reordered tree other → other.SortedKeys → other.compact = sorted.compact := by
  have hjson := s.json_eq_view
  rw [toJson, toPrettyJson, toSortedJson, checked_eq]
  cases hview : s.view with
  | error cause =>
    rw [hview] at hjson
    exact .inl ⟨cause, s.worksOut_json.error_iff.1 hjson, rfl, rfl, rfl⟩
  | ok v =>
    rw [hview] at hjson
    obtain ⟨hsame, hsorted⟩ := (sorted_eq_iff v.distinctKeys_json).1 rfl
    refine .inr ⟨v.json, _, _, v.json.sorted, hjson, rfl, rfl, rfl, rfl, ?_, hsame, hsorted, ?_⟩
    · rw [String.toList_ofList, withoutBlanks_pretty]
    · intro other hother hkeys
      rw [(sorted_eq_iff v.distinctKeys_json).2 ⟨hother, hkeys⟩]

end Shape

end Atelier
