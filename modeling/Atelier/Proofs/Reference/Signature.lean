import Atelier.Proofs.Text.Word
import Atelier.Reference.Catalog

/-!
# What a signature tells

A signature shows the name of a type and its fields, and nothing of them is lost in it
(`TypeDoc.signature_eq_iff`), although an optional field is written in another form than one that
is required, and although the marks between the fields are no more than commas: a name may have
commas of its own.

A signature is read from the left. The name of the type ends at the first bracket, the name of a
field at the next colon, and what the field holds at the next comma or at the bracket that closes
the whole. Then either another field begins or all was read.
-/

namespace Atelier.Reference

open Text

/-! ## What a field holds -/

namespace FieldKind

/-- What a field holds as it stands in a signature. -/
def written (kind : FieldKind) (isOptional : Bool) : String :=
  if isOptional then "Option<" ++ kind.text ++ "> = None" else kind.text

/-- Whether a character can stand in what a field holds. -/
def isWrittenChar (c : Char) : Bool :=
  c ∉ [',', ')']

variable {kind kind' : FieldKind} {isOptional isOptional' : Bool}

theorem isWord_written (kind : FieldKind) (isOptional : Bool) :
    IsWord isWrittenChar (kind.written isOptional).toList := by
  cases kind <;> cases isOptional
  all_goals simp [IsWord, isWrittenChar, written, text]

/-- It does not end with a blank. -/
theorem exists_getLast?_written (kind : FieldKind) (isOptional : Bool) :
    ∃ c, (kind.written isOptional).toList.getLast? = some c ∧ c ≠ ' ' := by
  cases kind <;> cases isOptional
  all_goals simp [written, text]

theorem written_inj (h : kind.written isOptional = kind'.written isOptional') :
    kind = kind' ∧ isOptional = isOptional' := by
  cases kind <;> cases kind' <;> cases isOptional <;> cases isOptional'
  all_goals first | exact ⟨rfl, rfl⟩ | exact absurd h (by decide)

end FieldKind

/-! ## One field -/

namespace Field

variable {f g : Field} {after after' : List Char}

theorem toList_text (f : Field) :
    f.text.toList = f.name.toList ++ ':' :: ' ' :: (f.kind.written f.isOptional).toList := by
  unfold text FieldKind.written
  split <;> simp

theorem exists_getLast?_text (f : Field) : ∃ c, f.text.toList.getLast? = some c ∧ c ≠ ' ' := by
  obtain ⟨c, hlast, hc⟩ := f.kind.exists_getLast?_written f.isOptional
  refine ⟨c, ?_, hc⟩
  rw [toList_text, List.getLast?_append, List.getLast?_cons_cons, List.getLast?_cons, hlast]
  rfl

/-- A field is known from a text that starts with it, and so is its end. -/
theorem text_append_inj (hf : ':' ∉ f.name.toList) (hg : ':' ∉ g.name.toList)
    (hafter : EndsWord FieldKind.isWrittenChar after)
    (hafter' : EndsWord FieldKind.isWrittenChar after')
    (h : f.text.toList ++ after = g.text.toList ++ after') : f = g ∧ after = after' := by
  simp only [toList_text, List.append_assoc, List.cons_append] at h
  obtain ⟨hname, hbehind⟩ := word_append_inj (isWord_of_not_mem hf) (isWord_of_not_mem hg)
    (endsWord_mark _ _) (endsWord_mark _ _) h
  simp only [List.cons.injEq, true_and] at hbehind
  obtain ⟨hwritten, hrest⟩ := word_append_inj (f.kind.isWord_written f.isOptional)
    (g.kind.isWord_written g.isOptional) hafter hafter' hbehind
  obtain ⟨hkind, hoptional⟩ := FieldKind.written_inj (String.toList_inj.1 hwritten)
  obtain ⟨name, kind, isOptional⟩ := f
  obtain rfl : name = g.name := String.toList_inj.1 hname
  obtain rfl : kind = g.kind := hkind
  obtain rfl : isOptional = g.isOptional := hoptional
  exact ⟨rfl, hrest⟩

end Field

/-! ## All fields -/

/-- The fields that follow another one, each behind a comma. -/
def followers (fields : List Field) : List Char :=
  fields.flatMap fun f => ',' :: ' ' :: f.text.toList

/-- The fields of a signature. -/
def fieldList : List Field → List Char
  | [] => []
  | f :: rest => f.text.toList ++ followers rest

variable {fields fields' : List Field}

theorem followers_cons (f : Field) (rest : List Field) :
    followers (f :: rest) = ',' :: ' ' :: fieldList (f :: rest) := rfl

theorem toList_intercalate (fields : List Field) :
    (", ".intercalate (fields.map Field.text)).toList = fieldList fields := by
  cases fields with
  | nil => simp [fieldList]
  | cons f rest =>
    induction rest generalizing f with
    | nil => simp [fieldList, followers]
    | cons g rest ih =>
      rw [List.map_cons, String.intercalate_cons_of_ne_nil (by simp), String.toList_append,
        String.toList_append, ih g, List.append_assoc]
      rfl

theorem toList_signature (d : TypeDoc) :
    d.signature.toList = d.name.toList ++ '(' :: (fieldList d.fields ++ [')']) := by
  rw [TypeDoc.signature, String.toList_append, String.toList_append, String.toList_append,
    toList_intercalate]
  simp

theorem endsWord_followers (fields : List Field) :
    EndsWord FieldKind.isWrittenChar (followers fields ++ [')']) := by
  cases fields with
  | nil => exact endsWord_cons.2 rfl
  | cons f rest => exact endsWord_cons.2 rfl

theorem followers_inj (h : ∀ f ∈ fields, ':' ∉ f.name.toList)
    (h' : ∀ f ∈ fields', ':' ∉ f.name.toList)
    (htext : followers fields ++ [')'] = followers fields' ++ [')']) : fields = fields' := by
  induction fields generalizing fields' with
  | nil =>
    cases fields' with
    | nil => rfl
    | cons g rest' => cases htext
  | cons f rest ih =>
    cases fields' with
    | nil => cases htext
    | cons g rest' =>
      rw [List.forall_mem_cons] at h h'
      simp only [followers_cons, fieldList, List.cons_append, List.append_assoc, List.cons.injEq,
        true_and] at htext
      obtain ⟨rfl, hrest⟩ := Field.text_append_inj h.1 h'.1 (endsWord_followers rest)
        (endsWord_followers rest') htext
      rw [ih h.2 h'.2 hrest]

/-- A text with a field in it is not closed at once: the field brings a colon. -/
theorem close_ne_fieldList (f : Field) (rest : List Field) :
    [')'] ≠ fieldList (f :: rest) ++ [')'] := by
  intro h
  have hcolon : ':' ∈ fieldList (f :: rest) ++ [')'] := by simp [fieldList, Field.toList_text]
  rw [← h] at hcolon
  simp at hcolon

theorem fieldList_inj (h : ∀ f ∈ fields, ':' ∉ f.name.toList)
    (h' : ∀ f ∈ fields', ':' ∉ f.name.toList)
    (htext : fieldList fields ++ [')'] = fieldList fields' ++ [')']) : fields = fields' := by
  cases fields with
  | nil =>
    cases fields' with
    | nil => rfl
    | cons g rest' => exact absurd htext (close_ne_fieldList g rest')
  | cons f rest =>
    cases fields' with
    | nil => exact absurd htext.symm (close_ne_fieldList f rest)
    | cons g rest' =>
      refine followers_inj h h' ?_
      rw [followers_cons, followers_cons, List.cons_append, List.cons_append, List.cons_append,
        List.cons_append, htext]

/-- The last of the fields ends with what it holds, and no comma is behind it. -/
theorem getLast?_fieldList (fields : List Field) : (fieldList fields).getLast? ≠ some ' ' := by
  cases fields with
  | nil => simp [fieldList]
  | cons f rest =>
    induction rest generalizing f with
    | nil =>
      obtain ⟨c, hlast, hc⟩ := f.exists_getLast?_text
      simpa [fieldList, followers, hlast] using hc
    | cons g rest ih =>
      obtain ⟨c, tail, hcons⟩ : ∃ c tail, fieldList (g :: rest) = c :: tail := by
        rw [← List.ne_nil_iff_exists_cons]
        simp [fieldList, Field.toList_text]
      have hlater := ih g
      rw [hcons] at hlater
      rw [fieldList, followers_cons, hcons, List.getLast?_append]
      simpa using hlater

theorem getLast?_opened (name : List Char) (fields : List Field) :
    (name ++ '(' :: fieldList fields).getLast? ≠ some ' ' := by
  rw [List.getLast?_append]
  cases hlist : fieldList fields with
  | nil => simp
  | cons c tail =>
    have hlast := getLast?_fieldList fields
    rw [hlist] at hlast
    simpa using hlast

/-- No comma stands behind the last field. -/
theorem comma_not_last (d : TypeDoc) : ¬ ", )".toList <:+ d.signature.toList := by
  rintro ⟨front, hfront⟩
  rw [toList_signature] at hfront
  have hclosed : front ++ [',', ' '] ++ [')'] =
      d.name.toList ++ '(' :: fieldList d.fields ++ [')'] := by
    simpa using hfront
  have hlast := getLast?_opened d.name.toList d.fields
  rw [← List.append_cancel_right hclosed] at hlast
  simp at hlast

/-! ## The signature -/

namespace TypeDoc

/-- Whether the entry of a type has no bracket in its name, and no colon in the names of its fields.
An identifier has neither. -/
structure IsPlain (d : TypeDoc) : Prop where
  name : '(' ∉ d.name.toList
  fields : ∀ f ∈ d.fields, ':' ∉ f.name.toList

instance (d : TypeDoc) : Decidable d.IsPlain :=
  decidable_of_iff ('(' ∉ d.name.toList ∧ ∀ f ∈ d.fields, ':' ∉ f.name.toList)
    ⟨fun h => ⟨h.1, h.2⟩, fun h => ⟨h.name, h.fields⟩⟩

/-- All types of the catalog are plain. -/
theorem isPlain_of_mem_catalog : ∀ s ∈ catalog, ∀ d ∈ s.2, d.IsPlain := by decide

/-- **A signature loses nothing.** Two types have one signature exactly when they have one name and
the same fields in the same order, each with its name, with what it holds and with whether it may be
left out. No comma stands behind the last field. -/
theorem signature_eq_iff (d d' : TypeDoc) (h : d.IsPlain) (h' : d'.IsPlain) :
    (d.signature = d'.signature ↔ d.name = d'.name ∧ d.fields = d'.fields) ∧
      ¬ ", )".toList <:+ d.signature.toList := by
  refine ⟨⟨fun htext => ?_, fun ⟨hname, hfields⟩ => ?_⟩, comma_not_last d⟩
  · rw [← String.toList_inj, toList_signature, toList_signature] at htext
    obtain ⟨hname, hbehind⟩ := word_append_inj (isWord_of_not_mem h.name)
      (isWord_of_not_mem h'.name) (endsWord_mark _ _) (endsWord_mark _ _) htext
    exact ⟨String.toList_inj.1 hname, fieldList_inj h.fields h'.fields (List.cons.inj hbehind).2⟩
  · rw [signature, signature, hname, hfields]

/-- A circle, and a type that differs from it only in that no field may be left out. -/
theorem signature_eq_iff_circle :
    let bare : TypeDoc :=
      { circle with fields := circle.fields.map fun f => { f with isOptional := false } }
    circle.IsPlain ∧ bare.IsPlain ∧ circle.signature ≠ bare.signature ∧
      ¬ ", )".toList <:+ circle.signature.toList := by
  intro bare
  have hcircle : circle.IsPlain :=
    isPlain_of_mem_catalog (.shapes, shapes) (by decide) circle (by decide)
  have hbare : bare.IsPlain := by decide
  obtain ⟨htells, hlast⟩ := signature_eq_iff circle bare hcircle hbare
  refine ⟨hcircle, hbare, fun h => ?_, hlast⟩
  exact absurd (htells.1 h).2 (by decide)

end TypeDoc

end Atelier.Reference
