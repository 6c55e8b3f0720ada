import Atelier.Proofs.Drawing.Document
import Atelier.Proofs.Drawing.Traversal
import Atelier.Proofs.Json.Readable
import Mathlib.Data.List.Basic

/-!
# What a drawing shows

A shape is a tree of expressions; what its JSON text shows is less. `Shape.view` is that: the kind
of every shape, its numbers, the texts of its colours, its qualifiers and its children, with no
expression left in it and no number that is not finite. The text is written from the view alone
(`Shape.toJson_eq`), and the view can be read off the text (`View.text_injective`).
-/

namespace Atelier

/-! ## Numbers and colours -/

/-- A double that is a number. Two of them are equal when their bits are, so 0 and -0 are not. -/
def FiniteFloat : Type :=
  { x : Float // Number.finite x = true }

/-- A double as it is shown: one that is not finite is not shown as a number. -/
def FiniteFloat.ofFloat? (x : Float) : Option FiniteFloat :=
  if h : Number.finite x = true then some ⟨x, h⟩ else none

/-- The JSON tree of a number as it is shown. -/
def numberTree : Option FiniteFloat → Json
  | none => .null
  | some x => .number x.val

theorem numberTree_injective : Function.Injective numberTree := by
  intro x y h
  cases x with
  | none =>
    cases y with
    | none => rfl
    | some y => cases h
  | some x =>
    cases y with
    | none => cases h
    | some y => exact congrArg some (Subtype.ext (Json.number.inj h))

theorem numberTree_ofFloat? (x : Float) : numberTree (FiniteFloat.ofFloat? x) = Json.ofFloat x := by
  rw [FiniteFloat.ofFloat?, Json.ofFloat]
  split_ifs with h
  · rfl
  · rfl

theorem allFinite_numberTree (x : Option FiniteFloat) : (numberTree x).AllFinite := by
  cases x with
  | none => trivial
  | some x => exact x.property

/-- The field of a colour's text, left out when there is none. -/
def textField (name : String) : Option String → List (String × Json)
  | none => []
  | some text => [(name, .string text)]

/-- A colour that may be left out is known from the fields that it starts, provided that the next
field has another name. -/
theorem textField_append_inj {name : String} {c c' : Option String}
    {rest rest' : List (String × Json)} (hrest : ∀ field ∈ rest.head?, field.1 ≠ name)
    (hrest' : ∀ field ∈ rest'.head?, field.1 ≠ name)
    (h : textField name c ++ rest = textField name c' ++ rest') : c = c' ∧ rest = rest' := by
  cases c with
  | none =>
    cases c' with
    | none => exact ⟨rfl, h⟩
    | some text' =>
      have hhead : (name, Json.string text') ∈ rest.head? := congrArg List.head? h
      exact absurd rfl (hrest _ hhead)
  | some text =>
    cases c' with
    | none =>
      have hhead : (name, Json.string text) ∈ rest'.head? := congrArg List.head? h.symm
      exact absurd rfl (hrest' _ hhead)
    | some text' =>
      obtain ⟨hfield, hrest⟩ := List.cons.inj h
      exact ⟨congrArg some (Json.string.inj (Prod.mk.inj hfield).2), hrest⟩

/-! ## Forms -/

namespace Form

variable {α κ : Type} {form form' : Form α κ}

/-- A form is its kind, its numbers and its two colours. -/
theorem eq_of_parts (htag : form.tag = form'.tag) (hnamed : form.named = form'.named)
    (hstroke : form.stroke? = form'.stroke?) (hfill : form.fill? = form'.fill?) : form = form' := by
  cases form <;> cases form' <;> simp_all [tag, named, stroke?, fill?]

theorem length_named_of_tag (htag : form.tag = form'.tag) :
    form.named.length = form'.named.length := by
  cases form <;> cases form' <;> simp_all [tag, named]

/-- The fields of a form whose numbers and colours are known. -/
def shownFields (form : Form (Option FiniteFloat) String) : List (String × Json) :=
  form.named.map (fun (name, x) => (name, numberTree x)) ++ textField "stroke" form.stroke? ++
    textField "fill" form.fill?

/-- A form whose numbers and colours are worked out. -/
def shown (form : Form Value (Color Value)) :
    Except DivisionByZero (Form (Option FiniteFloat) String) :=
  form.mapM (fun v => FiniteFloat.ofFloat? <$> v.resolve) Color.toCss

theorem numberField_eq (name : String) (v : Value) :
    numberField name v =
      (fun x => (name, numberTree x)) <$> (FiniteFloat.ofFloat? <$> v.resolve) := by
  simp [numberField, Value.json, numberTree_ofFloat?]

theorem colorField_eq (name : String) (c : Option (Color Value)) :
    colorField name c = textField name <$> mapColor Color.toCss c := by
  cases c with
  | none => rfl
  | some c => simp [colorField, Color.json, mapColor, textField]

/-- The fields of a form are those of its numbers and colours. -/
theorem fields_eq_shown (form : Form Value (Color Value)) :
    form.fields = shownFields <$> form.shown := by
  rw [fields_eq, fieldsOf]
  simp only [numberField_eq, colorField_eq]
  cases form <;>
    simp only [shown, mapM, shownFields, named, stroke?, fill?, mapColor, List.mapM_cons,
      List.mapM_nil, map_eq_pure_bind, bind_assoc, pure_bind, List.map_cons, List.map_nil,
      List.flatten_cons, List.flatten_nil, List.append_nil, List.append_assoc, textField]

/-- Working out a form does not change its kind. -/
theorem tag_of_shown {form : Form Value (Color Value)} {form' : Form (Option FiniteFloat) String}
    (h : form.shown = .ok form') : form'.tag = form.tag := by
  have htag : tag <$> form.shown = (fun _ => form.tag) <$> form.shown := by
    cases form <;> simp only [shown, mapM, map_bind, map_pure, tag]
  rw [h] at htag
  exact Except.ok.inj htag

/-- A form is known from fields that start with its own and go on with the items. -/
theorem shownFields_append_inj {form form' : Form (Option FiniteFloat) String}
    {items items' : Json} {rest rest' : List (String × Json)} (htag : form.tag = form'.tag)
    (h : form.shownFields ++ ("items", items) :: rest =
      form'.shownFields ++ ("items", items') :: rest') :
    form = form' ∧ items = items' ∧ rest = rest' := by
  have hfield : Function.Injective fun (name, x) => ((name, numberTree x) : String × Json) := by
    intro a b hab
    exact Prod.ext (Prod.mk.inj hab).1 (numberTree_injective (Prod.mk.inj hab).2)
  have hnext : ∀ (c : Option String) (items : Json) (rest : List (String × Json)),
      ∀ field ∈ (textField "fill" c ++ ("items", items) :: rest).head?, field.1 ≠ "stroke" := by
    intro c items rest
    cases c with
    | none => simp [textField]
    | some text => simp [textField]
  simp only [shownFields, List.append_assoc] at h
  -- The numbers are as many on both sides; behind them each name tells which colours are left out.
  obtain ⟨hnamed, hcolors⟩ := List.append_inj h (by simpa using length_named_of_tag htag)
  obtain ⟨hstroke, hrest⟩ := textField_append_inj (hnext _ _ _) (hnext _ _ _) hcolors
  obtain ⟨hfill, hrest⟩ := textField_append_inj (by simp) (by simp) hrest
  obtain ⟨hitems, hrest⟩ := List.cons.inj hrest
  exact ⟨eq_of_parts htag (List.map_injective_iff.2 hfield hnamed) hstroke hfill,
    (Prod.mk.inj hitems).2, hrest⟩

end Form

/-! ## Trees -/

/-- What a tree of shapes shows. -/
structure View where
  form : Form (Option FiniteFloat) String
  items : List View
  qualifiers : List Qualifier

namespace Shape

mutual

/-- What a shape shows, once its expressions and colours are worked out. -/
def view : Shape → Except DivisionByZero View
  | ⟨form, items, qualifiers⟩ => do
    let form ← form.shown
    let items ← viewItems items
    return ⟨form, items, qualifiers⟩

def viewItems : List Shape → Except DivisionByZero (List View)
  | [] => .ok []
  | item :: rest => do
    let view ← item.view
    let views ← viewItems rest
    return view :: views

end

end Shape

namespace View

mutual

/-- The JSON tree of what is shown. -/
def json : View → Json
  | ⟨form, items, qualifiers⟩ =>
    .object (("type", .string form.tag) :: form.shownFields ++
      ("items", .array (jsonItems items)) :: Shape.qualifierField qualifiers)

def jsonItems : List View → List Json
  | [] => []
  | item :: rest => item.json :: jsonItems rest

end

/-- The compact text of what is shown. -/
def text (v : View) : String :=
  .ofList v.json.compact

/-! ### What stands in the fields -/

section Fields

variable {P : Json → Prop}

theorem forall_textField (hstring : ∀ text, P (.string text)) (name : String) (c : Option String) :
    ∀ field ∈ textField name c, P field.2 := by
  cases c with
  | none => simp [textField]
  | some text => simpa [textField] using hstring text

/-- The fields of a form hold numbers and strings. -/
theorem forall_shownFields (hnumber : ∀ x, P (numberTree x)) (hstring : ∀ text, P (.string text))
    (form : Form (Option FiniteFloat) String) : ∀ field ∈ form.shownFields, P field.2 := by
  rw [Form.shownFields, List.forall_mem_append, List.forall_mem_append, List.forall_mem_map]
  exact ⟨⟨fun named _ => hnumber named.2, forall_textField hstring _ _⟩,
    forall_textField hstring _ _⟩

/-- The field of the qualifiers holds an array of strings. -/
theorem forall_qualifierField (harray : ∀ words : List String, P (.array (words.map Json.string)))
    (qualifiers : List Qualifier) : ∀ field ∈ Shape.qualifierField qualifiers, P field.2 := by
  cases qualifiers with
  | nil => simp [Shape.qualifierField]
  | cons q rest =>
    have hwords := harray ((q :: rest).map Qualifier.word)
    rw [List.map_map] at hwords
    simpa [Shape.qualifierField, Function.comp_def] using hwords

end Fields

/-! ### All numbers are finite -/

theorem allFinite_words (words : List String) : (Json.array (words.map Json.string)).AllFinite := by
  simp [Json.AllFinite, Json.itemsFinite_iff]

mutual

theorem allFinite_json : (v : View) → v.json.AllFinite
  | ⟨form, items, qualifiers⟩ => by
    have hitems := itemsFinite_jsonItems items
    rw [json, Json.AllFinite, Json.fieldsFinite_iff, List.cons_append, List.forall_mem_cons,
      List.forall_mem_append, List.forall_mem_cons]
    exact ⟨trivial, forall_shownFields allFinite_numberTree (fun _ => trivial) form, hitems,
      forall_qualifierField allFinite_words qualifiers⟩

theorem itemsFinite_jsonItems : (items : List View) → Json.ItemsFinite (jsonItems items)
  | [] => trivial
  | item :: rest => ⟨allFinite_json item, itemsFinite_jsonItems rest⟩

end

/-! ### Reading the view off the text -/

theorem word_injective : Function.Injective Qualifier.word := by
  intro q q' h
  cases q <;> cases q' <;> first | rfl | exact absurd h (by decide)

theorem qualifierField_injective : Function.Injective Shape.qualifierField := by
  intro qualifiers qualifiers' h
  have hstring : Function.Injective fun q : Qualifier => Json.string q.word := by
    intro q q' hq
    exact word_injective (Json.string.inj hq)
  cases qualifiers with
  | nil =>
    cases qualifiers' with
    | nil => rfl
    | cons q' rest' => cases h
  | cons q rest =>
    cases qualifiers' with
    | nil => cases h
    | cons q' rest' =>
      have hwords := Json.array.inj (Prod.mk.inj (List.cons.inj h).1).2
      exact List.map_injective_iff.2 hstring hwords

mutual

theorem json_inj (v w : View) (h : v.json = w.json) : v = w := by
  match v, w with
  | ⟨form, items, qualifiers⟩, ⟨form', items', qualifiers'⟩ =>
    rw [json, json] at h
    obtain ⟨htag, hfields⟩ := List.cons.inj (Json.object.inj h)
    obtain ⟨rfl, hitems, hqualifiers⟩ :=
      Form.shownFields_append_inj (Json.string.inj (Prod.mk.inj htag).2) hfields
    obtain rfl := jsonItems_inj items items' (Json.array.inj hitems)
    rw [qualifierField_injective hqualifiers]

theorem jsonItems_inj (items items' : List View) (h : jsonItems items = jsonItems items') :
    items = items' := by
  match items, items' with
  | [], [] => rfl
  | item :: rest, item' :: rest' =>
    rw [jsonItems, jsonItems] at h
    rw [json_inj item item' (List.cons.inj h).1, jsonItems_inj rest rest' (List.cons.inj h).2]

end

/-- **The text of a drawing determines what it shows.** -/
theorem text_injective : Function.Injective text := by
  intro v w h
  apply json_inj
  exact Json.compact_injective v.allFinite_json w.allFinite_json (String.ofList_injective h)

end View

namespace Shape

mutual

/-- The tree of a shape is that of its view. -/
theorem json_eq_view : (s : Shape) → s.json = View.json <$> s.view
  | ⟨form, items, qualifiers⟩ => by
    rw [json, view, form.fields_eq_shown, jsonItems_eq_view items]
    cases hform : form.shown with
    | error cause => rfl
    | ok form' =>
      cases viewItems items with
      | error cause => rfl
      | ok items' =>
        rw [← Form.tag_of_shown hform]
        rfl

theorem jsonItems_eq_view :
    (items : List Shape) → jsonItems items = View.jsonItems <$> viewItems items
  | [] => rfl
  | item :: rest => by
    rw [jsonItems, viewItems, json_eq_view item, jsonItems_eq_view rest]
    cases item.view with
    | error cause => rfl
    | ok v =>
      cases viewItems rest with
      | error cause => rfl
      | ok views => rfl

end

/-- The tree that is written is that of the view, and a shape without a view fails as the view
does. -/
theorem checked_eq (s : Shape) : s.checked = View.json <$> s.view.mapError .division := by
  have hcheck : discard s.json = s.resolveAll :=
    s.worksOut_json.trans s.worksOut_resolveAll.eq_workThrough.symm
  rw [s.json_eq_view] at hcheck
  rw [checked, serialize, s.json_eq_view, ← hcheck]
  cases s.view with
  | error cause => rfl
  | ok v => rfl

/-- The text of a shape is that of its view. -/
theorem toJson_eq (s : Shape) : s.toJson = View.text <$> s.view.mapError .division := by
  rw [toJson, checked_eq, Functor.map_map]
  rfl

/-- What is not in the view is in no text. -/
theorem checked_congr {s s' : Shape} (h : s.view = s'.view) : s.checked = s'.checked := by
  rw [checked_eq, checked_eq, h]

/-- **The compact text shows the view and nothing else.** Two shapes that can be written have the
same text exactly when they show the same: the same kinds, the same numbers to the last bit, the
same texts of colours, the same qualifiers and the same children. -/
theorem toJson_eq_iff_view_eq {s₁ s₂ : Shape} {text₁ text₂ : String}
    (h₁ : s₁.toJson = .ok text₁) (h₂ : s₂.toJson = .ok text₂) :
    ∃ view₁ view₂, s₁.view = .ok view₁ ∧ s₂.view = .ok view₂ ∧
      (text₁ = text₂ ↔ view₁ = view₂) := by
  rw [toJson_eq] at h₁ h₂
  cases hview₁ : s₁.view with
  | error cause =>
    rw [hview₁] at h₁
    cases h₁
  | ok view₁ =>
    cases hview₂ : s₂.view with
    | error cause =>
      rw [hview₂] at h₂
      cases h₂
    | ok view₂ =>
      rw [hview₁] at h₁
      rw [hview₂] at h₂
      obtain rfl : view₁.text = text₁ := Except.ok.inj h₁
      obtain rfl : view₂.text = text₂ := Except.ok.inj h₂
      exact ⟨view₁, view₂, rfl, rfl, View.text_injective.eq_iff⟩

/-- A circle whose radius is a number, and one whose radius is a node for that number. -/
theorem toJson_eq_iff_view_eq_lifted :
    let circle := fun r : Value =>
      ofForm (.circle (.number 0) (.number 1) r none (some (.css "\"")))
    ∃ text, (circle (.number 2)).toJson = .ok text ∧
      (circle (.node (.scalar 0 2))).toJson = .ok text := by
  intro circle
  obtain ⟨text₁, h₁⟩ : ∃ text, (circle (.number 2)).toJson = .ok text := ⟨_, rfl⟩
  obtain ⟨text₂, h₂⟩ : ∃ text, (circle (.node (.scalar 0 2))).toJson = .ok text := ⟨_, rfl⟩
  obtain ⟨view₁, view₂, hview₁, hview₂, hiff⟩ := toJson_eq_iff_view_eq h₁ h₂
  have hview : (circle (.number 2)).view = (circle (.node (.scalar 0 2))).view := rfl
  have htext := hiff.2 (Except.ok.inj (hview₁.symm.trans (hview.trans hview₂)))
  exact ⟨text₁, h₁, htext ▸ h₂⟩

end Shape

end Atelier
