import Atelier.Proofs.Drawing.View
import Atelier.Reference.Catalog

/-!
# Drawings have the fields that are documented

The reference lists the fields of every kind of shape, and the writer goes by lists of its own.
Still they are in step at every depth of a drawing (`Shape.Documented`): an object has the fields
that the entry of its kind names, in the order of the entry, each holding what the entry says of it,
and only colours that are not set are left out.
-/

namespace Atelier

open Reference

/-! ## What is documented -/

namespace Reference

/-- Whether a JSON tree is a number as it is shown: finite, or `null`. -/
def HoldsNumber (tree : Json) : Prop :=
  tree = .null ∨ ∃ x, Number.finite x = true ∧ tree = .number x

/-- Whether a JSON tree is what a field of a kind holds. The children of the shape have the given
trees. -/
def FieldKind.Holds (items : List Json) : FieldKind → Json → Prop
  | float, tree => HoldsNumber tree
  | int, tree => HoldsNumber tree
  | color, tree => ∃ text, tree = .string text
  | shapes, tree => tree = .array items

/-- Whether a field of an object is the one that is documented. -/
structure Field.Describes (items : List Json) (f : Field) (field : String × Json) : Prop where
  name : field.1 = f.name
  holds : f.kind.Holds items field.2

end Reference

namespace Form

variable {α κ : Type}

/-- The colour of a form by the name of its field. -/
def color? (form : Form α κ) : String → Option κ
  | "stroke" => form.stroke?
  | "fill" => form.fill?
  | _ => none

/-- Whether a documented field stands in the object: all but the colours that are not set. -/
def isWritten (form : Form α κ) (f : Field) : Bool :=
  f.kind ≠ .color ∨ (form.color? f.name).isSome

end Form

/-- Whether a JSON tree is the object that is documented for a shape: its kind, which is the name of
its entry in small letters, the documented fields, and the qualifiers if it has any. The same holds
of its children. -/
inductive Shape.Documented : Shape → Json → Prop
  | object {s : Shape} {entry : TypeDoc} {items : List Json}
      {fields qualifiers : List (String × Json)} (hentry : entry ∈ Reference.shapes)
      (hname : entry.name = s.typeName)
      (hfields : List.Forall₂ (Field.Describes items) (entry.fields.filter s.form.isWritten) fields)
      (hqualifiers : qualifiers.map Prod.fst = if s.qualifiers = [] then [] else ["qualifiers"])
      (hitems : List.Forall₂ Documented s.items items) :
      Documented s (.object (("type", .string entry.name.toLower) :: fields ++ qualifiers))

/-! ## What is written -/

theorem holdsNumber_ofFloat (x : Float) : HoldsNumber (Json.ofFloat x) := by
  rw [Json.ofFloat]
  split_ifs with hx
  · exact .inr ⟨x, hx, rfl⟩
  · exact .inl rfl

namespace Form

variable {numbers : List (String × Value)} {colors : List (String × Option (Color Value))}
  {fields : List (String × Json)} {lists : List (List (String × Json))} {name : String}

theorem describes_numberField {v : Value} {field : String × Json}
    (h : numberField name v = .ok field) (items : List Json) :
    (Field.required name .float).Describes items field := by
  obtain ⟨tree, htree, rfl⟩ := map_eq_ok_iff.1 h
  obtain ⟨x, -, rfl⟩ := map_eq_ok_iff.1 htree
  exact ⟨rfl, holdsNumber_ofFloat x⟩

theorem describes_colorField {c : Color Value} (h : colorField name (some c) = .ok fields)
    (items : List Json) :
    ∃ field, fields = [field] ∧ (Field.optional name .color).Describes items field := by
  obtain ⟨tree, htree, rfl⟩ := map_eq_ok_iff.1 h
  obtain ⟨text, -, rfl⟩ := map_eq_ok_iff.1 htree
  exact ⟨_, rfl, rfl, text, rfl⟩

/-- Every colour that is set leaves one field. -/
theorem describes_colorFields
    (h : List.Forall₂ (fun c fields => colorField c.1 c.2 = .ok fields) colors lists)
    (items : List Json) :
    List.Forall₂ (fun c => (Field.optional c.1 .color).Describes items)
      (colors.filter (·.2.isSome)) lists.flatten := by
  induction h with
  | nil => exact .nil
  | @cons c fields colors lists hfields _ ih =>
    obtain ⟨name, c⟩ := c
    cases c with
    | none =>
      obtain rfl : [] = fields := Except.ok.inj hfields
      exact ih
    | some c =>
      obtain ⟨field, rfl, hfield⟩ := describes_colorField hfields items
      exact .cons hfield ih

/-- The fields that are written for numbers and for the colours that are set. -/
theorem describes_fieldsOf (h : fieldsOf numbers colors = .ok fields) (items : List Json) :
    ∃ numberFields colorFields, fields = numberFields ++ colorFields ∧
      List.Forall₂ (fun n => (Field.required n.1 .float).Describes items) numbers numberFields ∧
      List.Forall₂ (fun c => (Field.optional c.1 .color).Describes items)
        (colors.filter (·.2.isSome)) colorFields := by
  rw [fieldsOf] at h
  obtain ⟨numberFields, hnumbers, h⟩ := bind_eq_ok_iff.1 h
  obtain ⟨lists, hcolors, h⟩ := bind_eq_ok_iff.1 h
  rw [mapM_eq_ok_iff] at hnumbers hcolors
  exact ⟨numberFields, lists.flatten, (Except.ok.inj h).symm,
    hnumbers.imp fun _ _ hn => describes_numberField hn items, describes_colorFields hcolors items⟩

end Form

/-! ## The entry of a form -/

namespace Form

variable {α κ : Type}

/-- The entry of the reference for a form. -/
def entry : Form α κ → TypeDoc
  | rect .. => Reference.rect
  | square .. => Reference.square
  | ellipse .. => Reference.ellipse
  | circle .. => Reference.circle
  | polygon .. => Reference.polygon
  | line .. => Reference.line
  | group .. => Reference.group

theorem entry_mem (form : Form α κ) : form.entry ∈ Reference.shapes := by
  cases form <;> simp [entry, Reference.shapes]

theorem name_entry (form : Form α κ) : form.entry.name = form.typeName := by
  cases form <;> rfl

/-- The word for the kind of a form is the name of its entry in small letters. -/
theorem toLower_name_entry (form : Form α κ) : form.entry.name.toLower = form.tag := by
  have hmap : form.typeName.toLower = form.typeName.map Char.toLower := rfl
  rw [name_entry, hmap, ← String.toList_inj, String.toList_map]
  cases form
  all_goals simp [typeName, tag]

/-- The entry of a form names its numbers, and all colours of the form that can be set. -/
theorem fields_entry (form : Form α κ) :
    ∃ numbers colors, form.entry.fields = shapeFields numbers colors ∧
      numbers.map Prod.fst = form.named.map Prod.fst ∧
      (∀ number ∈ numbers, number.2 = .float ∨ number.2 = .int) ∧
      colors.filter (fun name => (form.color? name).isSome) =
        ["stroke", "fill"].filter fun name => (form.color? name).isSome := by
  cases form with
  | rect | square | ellipse | circle | polygon => exact ⟨_, _, rfl, rfl, by simp, rfl⟩
  | line _ _ _ _ stroke => exact ⟨_, _, rfl, rfl, by simp, by cases stroke <;> rfl⟩
  | group => exact ⟨_, _, rfl, rfl, by simp, rfl⟩

theorem shapeFields_eq (numbers : List (String × FieldKind)) (colors : List String) :
    shapeFields numbers colors =
      numbers.map (fun number => Field.required number.1 number.2) ++
        colors.map (fun name => Field.optional name .color) ++ [Field.optional "items" .shapes] :=
  rfl

/-- Of the documented fields only colours are ever left out. -/
theorem filter_shapeFields (form : Form α κ) {numbers : List (String × FieldKind)}
    (hnumbers : ∀ number ∈ numbers, number.2 = .float ∨ number.2 = .int) (colors : List String) :
    (shapeFields numbers colors).filter form.isWritten =
      shapeFields numbers (colors.filter fun name => (form.color? name).isSome) := by
  have hkept : numbers.filter (form.isWritten ∘ fun number => Field.required number.1 number.2) =
      numbers := by
    refine List.filter_eq_self.2 fun number hnumber => ?_
    cases hnumbers number hnumber with
    | inl hkind => simp [isWritten, Field.required, hkind]
    | inr hkind => simp [isWritten, Field.required, hkind]
  have hcolors : (form.isWritten ∘ fun name => Field.optional name .color) =
      fun name => (form.color? name).isSome := by
    funext name
    simp [isWritten, Field.optional]
  have hitems : [Field.optional "items" .shapes].filter form.isWritten =
      [Field.optional "items" .shapes] := by
    simp [isWritten, Field.optional]
  rw [shapeFields_eq, shapeFields_eq, List.filter_append, List.filter_append, List.filter_map,
    List.filter_map, hkept, hcolors, hitems]

/-- A number is written alike whether it is documented as a whole one or not. -/
theorem describes_numbers {numbers : List (String × FieldKind)} {fields : List (String × Json)}
    {items : List Json} (hkinds : ∀ number ∈ numbers, number.2 = .float ∨ number.2 = .int)
    (h : List.Forall₂ (fun name => (Field.required name .float).Describes items)
      (numbers.map Prod.fst) fields) :
    List.Forall₂ (fun number => (Field.required number.1 number.2).Describes items) numbers
      fields := by
  rw [List.forall₂_map_left_iff] at h
  induction h with
  | nil => exact .nil
  | @cons number field numbers fields hfield _ ih =>
    rw [List.forall_mem_cons] at hkinds
    refine .cons ⟨hfield.name, ?_⟩ (ih hkinds.2)
    cases hkinds.1 with
    | inl hkind => rw [hkind]; exact hfield.holds
    | inr hkind => rw [hkind]; exact hfield.holds

end Form

/-! ## Documented and written fields are in step -/

variable {form : Form Value (Color Value)} {fields : List (String × Json)}

theorem Form.describes_fields (h : form.fields = .ok fields) (items : List Json) :
    List.Forall₂ (Field.Describes items) (form.entry.fields.filter form.isWritten)
      (fields ++ [("items", .array items)]) := by
  rw [fields_eq] at h
  obtain ⟨numberFields, colorFields, rfl, hnumbers, hcolors⟩ := describes_fieldsOf h items
  obtain ⟨numbers, colors, hentry, hnames, hkinds, hset⟩ := form.fields_entry
  rw [hentry, form.filter_shapeFields hkinds, hset, shapeFields_eq]
  refine List.rel_append (List.rel_append ?_ ?_) (.cons ⟨rfl, rfl⟩ .nil)
  · have hfloats : List.Forall₂ (fun name => (Field.required name .float).Describes items)
        (form.named.map Prod.fst) numberFields := List.forall₂_map_left_iff.2 hnumbers
    rw [← hnames] at hfloats
    exact List.forall₂_map_left_iff.2 (describes_numbers hkinds hfloats)
  · have hnamed : [("stroke", form.stroke?), ("fill", form.fill?)] =
        ["stroke", "fill"].map fun name => (name, form.color? name) := rfl
    rw [hnamed, List.filter_map, List.forall₂_map_left_iff] at hcolors
    exact List.forall₂_map_left_iff.2 hcolors

namespace Shape

theorem keys_qualifierField (qualifiers : List Qualifier) :
    (qualifierField qualifiers).map Prod.fst =
      if qualifiers = [] then [] else ["qualifiers"] := by
  cases qualifiers with
  | nil => rfl
  | cons q rest => rfl

mutual

/-- **What is written is what is documented**, at every depth. -/
theorem documented_json : (s : Shape) → (tree : Json) → s.json = .ok tree → s.Documented tree
  | ⟨form, items, qualifiers⟩, tree, h => by
    rw [json] at h
    obtain ⟨fields, hfields, h⟩ := bind_eq_ok_iff.1 h
    obtain ⟨trees, htrees, h⟩ := bind_eq_ok_iff.1 h
    obtain rfl := Except.ok.inj h
    have hdocumented : Documented ⟨form, items, qualifiers⟩ _ :=
      .object form.entry_mem form.name_entry (Form.describes_fields hfields trees)
        (keys_qualifierField qualifiers) (documented_jsonItems items trees htrees)
    rw [form.toLower_name_entry] at hdocumented
    simpa using hdocumented

theorem documented_jsonItems : (items : List Shape) → (trees : List Json) →
    jsonItems items = .ok trees → List.Forall₂ Documented items trees
  | [], trees, h => by
    obtain rfl := Except.ok.inj h
    exact .nil
  | item :: rest, trees, h => by
    rw [jsonItems] at h
    obtain ⟨tree, htree, h⟩ := bind_eq_ok_iff.1 h
    obtain ⟨later, hlater, h⟩ := bind_eq_ok_iff.1 h
    obtain rfl := Except.ok.inj h
    exact .cons (documented_json item tree htree) (documented_jsonItems rest later hlater)

end

/-- **The documented fields are the fields that are written.** The text of a shape is that of one
tree and no other, and this tree is the one that is documented for the shape. -/
theorem exists_documented_of_toJson {s : Shape} {text : String} (h : s.toJson = .ok text) :
    ∃ tree : Json, (∀ other : Json, other.AllFinite ∧ text = .ofList other.compact ↔ other = tree) ∧
      s.Documented tree := by
  rw [toJson_eq, map_eq_ok_iff] at h
  obtain ⟨v, hview, rfl⟩ := h
  have hjson : s.json = .ok v.json := by
    rw [json_eq_view, mapError_eq_ok_iff.1 hview, Except.map_ok]
  refine ⟨v.json, fun other => ?_, documented_json s v.json hjson⟩
  constructor
  · rintro ⟨hother, htext⟩
    exact Json.compact_injective hother v.allFinite_json (String.ofList_injective htext).symm
  · rintro rfl
    exact ⟨v.allFinite_json, rfl⟩

/-- A square with a fill and no stroke, and a line on it that has no colour at all. -/
theorem exists_documented_of_toJson_square :
    let square := ofForm (.square (.number 0) (.number 0) (.number 2) none (some (.css "red")))
    let line := ofForm (.line (.number 0) (.number 0) (.number 2) (.number 2) none)
    let drawing := (square.add line).qualify .rough
    ∃ text tree, drawing.toJson = .ok text ∧ text = .ofList tree.compact ∧
      drawing.Documented tree := by
  intro square line drawing
  obtain ⟨text, h⟩ : ∃ text, drawing.toJson = .ok text := ⟨_, rfl⟩
  obtain ⟨tree, htext, hdocumented⟩ := exists_documented_of_toJson h
  exact ⟨text, tree, h, ((htext tree).2 rfl).2, hdocumented⟩

end Shape

end Atelier
