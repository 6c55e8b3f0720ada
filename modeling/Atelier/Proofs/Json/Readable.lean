import Atelier.Json.Printer
import Atelier.Proofs.Number.Reading
import Atelier.Proofs.Text.Word

/-!
# The compact form can be read back

No two JSON trees have the same compact form (`compact_injective`), as long as their numbers are
finite. The first character of a tree tells its kind, a string ends at the first quote that is not
escaped, and a number ends before the first character that no number has. So a tree is known from
any text that starts with it, and so is where it ends.
-/

namespace Atelier.Json

variable {after after' : List Char} {a b : Json}

/-! ## Strings -/

/-- The number that a hexadecimal digit stands for. -/
def hexValue (c : Char) : Nat :=
  if c.isDigit then c.toNat - '0'.toNat else c.toNat - 'a'.toNat + 10

/-- What the letter of an escape stands for. -/
def unescape (letter : Char) : Char :=
  match letter with
  | 'b' => '\x08'
  | 'f' => '\x0c'
  | 'n' => '\n'
  | 'r' => '\r'
  | 't' => '\t'
  | c => c

/-- The first character of a text inside quotes, and what comes behind it; none where the text
inside the quotes ends. -/
def readChar? : List Char → Option (Char × List Char)
  | [] => none
  | '"' :: _ => none
  | '\\' :: 'u' :: _ :: _ :: high :: low :: rest =>
    some (.ofNat (16 * hexValue high + hexValue low), rest)
  | '\\' :: letter :: rest => some (unescape letter, rest)
  | c :: rest => some (c, rest)

theorem readChar?_control :
    ∀ n < 32, Char.ofNat (16 * hexValue (Nat.digitChar (n / 16)) +
      hexValue (Nat.digitChar (n % 16))) = Char.ofNat n := by
  decide

theorem readChar?_escaped (c : Char) (rest : List Char) :
    readChar? (escaped c ++ rest) = some (c, rest) := by
  unfold escaped escape?
  split
  case h_8 =>
    split
    · rename_i hcontrol
      have hread := readChar?_control c.toNat hcontrol
      rw [Char.ofNat_toNat] at hread
      simp [readChar?, hread]
    · unfold readChar?
      simp_all
  all_goals rfl

/-- Text inside quotes is known up to the quote that ends it, and so is what comes behind. -/
theorem flatMap_escaped_inj (text text' : List Char)
    (h : text.flatMap escaped ++ '"' :: after = text'.flatMap escaped ++ '"' :: after') :
    text = text' ∧ after = after' := by
  -- Reading one character gives the same on both sides: two characters, or two ends.
  have hread := congrArg readChar? h
  induction text generalizing text' with
  | nil =>
    cases text' with
    | nil => exact ⟨rfl, (List.cons.inj h).2⟩
    | cons c' rest' =>
      rw [List.flatMap_cons, List.append_assoc, readChar?_escaped] at hread
      cases hread
  | cons c rest ih =>
    rw [List.flatMap_cons, List.append_assoc, readChar?_escaped] at hread
    cases text' with
    | nil => cases hread
    | cons c' rest' =>
      rw [List.flatMap_cons, List.append_assoc, readChar?_escaped] at hread
      obtain ⟨rfl, hrest⟩ := Prod.mk.inj (Option.some.inj hread)
      obtain ⟨rfl, hafter⟩ := ih rest' hrest (congrArg readChar? hrest)
      exact ⟨rfl, hafter⟩

/-- A string is known from a text that starts with it, and so is its end. -/
theorem quoted_append_inj {s s' : String} (h : quoted s ++ after = quoted s' ++ after') :
    s = s' ∧ after = after' := by
  simp only [quoted, List.cons_append, List.append_assoc, List.nil_append] at h
  obtain ⟨htext, hafter⟩ := flatMap_escaped_inj _ _ (List.cons.inj h).2
  exact ⟨String.toList_inj.1 htext, hafter⟩

/-! ## Numbers -/

/-- Whether a text does not go on with a character that a number can have. -/
def EndsNumber (after : List Char) : Prop :=
  ∀ c ∈ after.head?, Number.isNumberChar c = false

/-- A number is known from a text that starts with it, and so is its end. -/
theorem numberText_append_inj {x y : Float} (hx : Number.finite x = true)
    (hy : Number.finite y = true) (hafter : EndsNumber after) (hafter' : EndsNumber after')
    (h : numberText x ++ after = numberText y ++ after') : x = y ∧ after = after' := by
  obtain ⟨s, hs⟩ := Number.exists_literal?_of_finite hx
  obtain ⟨s', hs'⟩ := Number.exists_literal?_of_finite hy
  simp only [numberText, hs, hs', Option.getD_some] at h
  obtain ⟨htext, hrest⟩ := Text.word_append_inj (Number.literal?_isNumberChar hs)
    (Number.literal?_isNumberChar hs') hafter hafter' h
  rw [← String.toList_inj.1 htext] at hs'
  exact ⟨Number.literal?_injective hs hs', hrest⟩

/-! ## Trees -/

/-- What a tree is, apart from its parts. -/
inductive Kind where
  | null
  | number
  | string
  | array
  | object
deriving DecidableEq

def kind : Json → Kind
  | null => .null
  | number _ => .number
  | string _ => .string
  | array _ => .array
  | object _ => .object

/-- The kind of the trees that start with a character, if there are any. -/
def kindOf? (c : Char) : Option Kind :=
  if c.isDigit ∨ c = '-' then some .number
  else
    match c with
    | 'n' => some .null
    | '"' => some .string
    | '[' => some .array
    | '\x7b' => some .object
    | _ => none

mutual

/-- Whether all numbers in a tree are finite, so that each of them is written as itself. -/
def AllFinite : Json → Prop
  | null => True
  | number x => Number.finite x = true
  | string _ => True
  | array items => ItemsFinite items
  | object fields => FieldsFinite fields

def ItemsFinite : List Json → Prop
  | [] => True
  | item :: rest => item.AllFinite ∧ ItemsFinite rest

def FieldsFinite : List (String × Json) → Prop
  | [] => True
  | (_, value) :: rest => value.AllFinite ∧ FieldsFinite rest

end

theorem itemsFinite_iff (items : List Json) :
    ItemsFinite items ↔ ∀ item ∈ items, item.AllFinite := by
  induction items with
  | nil => simp [ItemsFinite]
  | cons item rest ih => rw [ItemsFinite, ih, List.forall_mem_cons]

theorem fieldsFinite_iff (fields : List (String × Json)) :
    FieldsFinite fields ↔ ∀ field ∈ fields, field.2.AllFinite := by
  induction fields with
  | nil => simp [FieldsFinite]
  | cons field rest ih => rw [FieldsFinite, ih, List.forall_mem_cons]

/-- The first character of a tree tells its kind. -/
theorem exists_head_compactBefore (h : a.AllFinite) (after : List Char) :
    ∃ c rest, a.compactBefore after = c :: rest ∧ kindOf? c = some a.kind := by
  cases a with
  | null => exact ⟨'n', _, rfl, rfl⟩
  | string s => exact ⟨'"', _, rfl, rfl⟩
  | array items =>
    cases items with
    | nil => exact ⟨'[', _, rfl, rfl⟩
    | cons item rest => exact ⟨'[', _, by rw [compactBefore], rfl⟩
  | object fields =>
    cases fields with
    | nil => exact ⟨'\x7b', _, rfl, rfl⟩
    | cons field rest => exact ⟨'\x7b', _, by rw [compactBefore], rfl⟩
  | number x =>
    obtain ⟨s, hs⟩ := Number.exists_literal?_of_finite h
    obtain ⟨c, rest, htext, hc⟩ := Number.exists_head_literal? hs
    refine ⟨c, rest ++ after, ?_, if_pos hc⟩
    rw [compactBefore, numberText, hs, Option.getD_some, htext, List.cons_append]

theorem kind_eq_of_compactBefore (ha : a.AllFinite) (hb : b.AllFinite)
    (h : a.compactBefore after = b.compactBefore after') : a.kind = b.kind := by
  obtain ⟨c, rest, htext, hkind⟩ := exists_head_compactBefore ha after
  obtain ⟨c', rest', htext', hkind'⟩ := exists_head_compactBefore hb after'
  rw [htext, htext'] at h
  obtain ⟨rfl, -⟩ := List.cons.inj h
  exact Option.some.inj (hkind.symm.trans hkind')

/-- A character that no tree starts with. -/
theorem compactBefore_ne_cons {c : Char} (ha : a.AllFinite) (hc : kindOf? c = none) :
    a.compactBefore after ≠ c :: after' := by
  intro h
  obtain ⟨c', rest, htext, hkind⟩ := exists_head_compactBefore ha after
  rw [htext] at h
  obtain ⟨rfl, -⟩ := List.cons.inj h
  cases hc.symm.trans hkind

theorem endsNumber_compactItems (items : List Json) (after : List Char) :
    EndsNumber (compactItems items after) := by
  cases items with
  | nil => simp [compactItems, EndsNumber, Number.isNumberChar]
  | cons item rest => simp [compactItems, EndsNumber, Number.isNumberChar]

theorem endsNumber_compactFields (fields : List (String × Json)) (after : List Char) :
    EndsNumber (compactFields fields after) := by
  cases fields with
  | nil => simp [compactFields, EndsNumber, Number.isNumberChar]
  | cons field rest => simp [compactFields, EndsNumber, Number.isNumberChar]

/-- Two arrays with the same text agree from the first item on: it cannot be taken for the end. -/
theorem compactItems_eq_of_array {items items' : List Json} (ha : ItemsFinite items)
    (hb : ItemsFinite items')
    (h : (array items).compactBefore after = (array items').compactBefore after') :
    compactItems items after = compactItems items' after' := by
  cases items with
  | nil =>
    cases items' with
    | nil => exact (List.cons.inj h).2
    | cons item' rest' =>
      rw [compactBefore, compactBefore] at h
      exact absurd (List.cons.inj h).2.symm (compactBefore_ne_cons hb.1 rfl)
  | cons item rest =>
    cases items' with
    | nil =>
      rw [compactBefore, compactBefore] at h
      exact absurd (List.cons.inj h).2 (compactBefore_ne_cons ha.1 rfl)
    | cons item' rest' =>
      rw [compactBefore, compactBefore] at h
      rw [compactItems, compactItems, (List.cons.inj h).2]

theorem compactFields_eq_of_object {fields fields' : List (String × Json)}
    (h : (object fields).compactBefore after = (object fields').compactBefore after') :
    compactFields fields after = compactFields fields' after' := by
  cases fields with
  | nil =>
    cases fields' with
    | nil => exact (List.cons.inj h).2
    | cons field' rest' =>
      rw [compactBefore, compactBefore] at h
      cases (List.cons.inj h).2
  | cons field rest =>
    cases fields' with
    | nil =>
      rw [compactBefore, compactBefore] at h
      cases (List.cons.inj h).2
    | cons field' rest' =>
      rw [compactBefore, compactBefore] at h
      rw [compactFields, compactFields, (List.cons.inj h).2]

mutual

/-- A tree is known from a text that starts with it, and so is its end. -/
theorem compactBefore_inj (a b : Json) (after after' : List Char) (ha : a.AllFinite)
    (hb : b.AllFinite) (hafter : EndsNumber after) (hafter' : EndsNumber after')
    (h : a.compactBefore after = b.compactBefore after') : a = b ∧ after = after' := by
  have hkind := kind_eq_of_compactBefore ha hb h
  -- The first character leaves trees of one kind only.
  match a, b with
  | null, null =>
    rw [compactBefore, compactBefore, List.append_cancel_left_eq] at h
    exact ⟨rfl, h⟩
  | number x, number y =>
    obtain ⟨rfl, hrest⟩ := numberText_append_inj ha hb hafter hafter' h
    exact ⟨rfl, hrest⟩
  | string s, string s' =>
    obtain ⟨rfl, hrest⟩ := quoted_append_inj h
    exact ⟨rfl, hrest⟩
  | array items, array items' =>
    obtain ⟨rfl, hrest⟩ := compactItems_inj items items' after after' ha hb
      (compactItems_eq_of_array ha hb h)
    exact ⟨rfl, hrest⟩
  | object fields, object fields' =>
    obtain ⟨rfl, hrest⟩ := compactFields_inj fields fields' after after' ha hb
      (compactFields_eq_of_object h)
    exact ⟨rfl, hrest⟩

theorem compactItems_inj (items items' : List Json) (after after' : List Char)
    (ha : ItemsFinite items) (hb : ItemsFinite items')
    (h : compactItems items after = compactItems items' after') :
    items = items' ∧ after = after' := by
  match items, items' with
  | [], [] => exact ⟨rfl, (List.cons.inj h).2⟩
  | item :: rest, item' :: rest' =>
    rw [compactItems, compactItems] at h
    obtain ⟨rfl, hrest⟩ := compactBefore_inj item item' _ _ ha.1 hb.1
      (endsNumber_compactItems rest after) (endsNumber_compactItems rest' after')
      (List.cons.inj h).2
    obtain ⟨rfl, hafter⟩ := compactItems_inj rest rest' after after' ha.2 hb.2 hrest
    exact ⟨rfl, hafter⟩

theorem compactFields_inj (fields fields' : List (String × Json)) (after after' : List Char)
    (ha : FieldsFinite fields) (hb : FieldsFinite fields')
    (h : compactFields fields after = compactFields fields' after') :
    fields = fields' ∧ after = after' := by
  match fields, fields' with
  | [], [] => exact ⟨rfl, (List.cons.inj h).2⟩
  | (key, value) :: rest, (key', value') :: rest' =>
    rw [compactFields, compactFields] at h
    obtain ⟨rfl, hvalue⟩ := quoted_append_inj (List.cons.inj h).2
    obtain ⟨rfl, hrest⟩ := compactBefore_inj value value' _ _ ha.1 hb.1
      (endsNumber_compactFields rest after) (endsNumber_compactFields rest' after')
      (List.cons.inj hvalue).2
    obtain ⟨rfl, hafter⟩ := compactFields_inj rest rest' after after' ha.2 hb.2 hrest
    exact ⟨rfl, hafter⟩

end

/-- **No two trees of finite numbers have the same compact form.** -/
theorem compact_injective (ha : a.AllFinite) (hb : b.AllFinite) (h : a.compact = b.compact) :
    a = b :=
  (compactBefore_inj a b [] [] ha hb (by simp [EndsNumber]) (by simp [EndsNumber]) h).1

end Atelier.Json
