import Atelier.Json.Basic
import Atelier.Proofs.Order.Increasing

/-!
# Trees with their keys in order

Two trees say the same where they differ by nothing but the order of the fields in their objects
(`Reordered`). If no object has a key twice, then exactly one of the trees that say the same has the
keys of every object in the order of their bytes, and `sorted` gives it (`sorted_eq_iff`).
-/

namespace Atelier.Json

variable {a b : Json} {items : List Json} {fields fields' : List (String × Json)}
  {P : List (String × Json) → Prop}

/-! ## All objects in a tree -/

mutual

/-- Whether the fields of every object in a tree have a property. -/
def Everywhere (P : List (String × Json) → Prop) : Json → Prop
  | null => True
  | number _ => True
  | string _ => True
  | array items => EverywhereItems P items
  | object fields => P fields ∧ EverywhereFields P fields

def EverywhereItems (P : List (String × Json) → Prop) : List Json → Prop
  | [] => True
  | item :: rest => item.Everywhere P ∧ EverywhereItems P rest

def EverywhereFields (P : List (String × Json) → Prop) : List (String × Json) → Prop
  | [] => True
  | (_, value) :: rest => value.Everywhere P ∧ EverywhereFields P rest

end

theorem everywhereItems_iff : EverywhereItems P items ↔ ∀ item ∈ items, item.Everywhere P := by
  induction items with
  | nil => simp [EverywhereItems]
  | cons item rest ih => rw [EverywhereItems, ih, List.forall_mem_cons]

theorem everywhereFields_iff :
    EverywhereFields P fields ↔ ∀ field ∈ fields, field.2.Everywhere P := by
  induction fields with
  | nil => simp [EverywhereFields]
  | cons field rest ih => rw [EverywhereFields, ih, List.forall_mem_cons]

theorem everywhereFields_perm (h : fields.Perm fields') :
    EverywhereFields P fields ↔ EverywhereFields P fields' := by
  rw [everywhereFields_iff, everywhereFields_iff]
  exact forall_congr' fun field => imp_congr_left h.mem_iff

/-- Whether no key stands twice. -/
abbrev Distinct (fields : List (String × Json)) : Prop :=
  (fields.map Prod.fst).Nodup

/-- Whether keys are in the order of their bytes. -/
abbrev InOrder (fields : List (String × Json)) : Prop :=
  Increasing Text.byteOrder Prod.fst fields

/-- Whether no object has a key twice. -/
def DistinctKeys (tree : Json) : Prop :=
  tree.Everywhere Distinct

/-- Whether the keys of every object are in order. -/
def SortedKeys (tree : Json) : Prop :=
  tree.Everywhere InOrder

/-! ## The same in another order -/

mutual

/-- Whether two trees differ by nothing but the order of fields. -/
inductive Reordered : Json → Json → Prop
  | null : Reordered .null .null
  | number (x : Float) : Reordered (.number x) (.number x)
  | string (s : String) : Reordered (.string s) (.string s)
  | array {items items' : List Json} (h : ReorderedItems items items') :
    Reordered (.array items) (.array items')
  | object {fields inside fields' : List (String × Json)} (h : ReorderedFields fields inside)
    (hperm : inside.Perm fields') : Reordered (.object fields) (.object fields')

/-- Items agree one by one. -/
inductive ReorderedItems : List Json → List Json → Prop
  | nil : ReorderedItems [] []
  | cons {item item' : Json} {rest rest' : List Json} (h : Reordered item item')
    (hrest : ReorderedItems rest rest') : ReorderedItems (item :: rest) (item' :: rest')

/-- Fields agree one by one, by the same keys. -/
inductive ReorderedFields : List (String × Json) → List (String × Json) → Prop
  | nil : ReorderedFields [] []
  | cons {value value' : Json} {rest rest' : List (String × Json)} (key : String)
    (h : Reordered value value') (hrest : ReorderedFields rest rest') :
    ReorderedFields ((key, value) :: rest) ((key, value') :: rest')

end

mutual

/-- Of the trees that say the same as a tree, one has its keys in order. -/
theorem Reordered.unique (tree a b : Json) (ha : Reordered tree a) (hb : Reordered tree b)
    (hsorted : a.SortedKeys) (hsorted' : b.SortedKeys) : a = b := by
  match tree with
  | .null => cases ha; cases hb; rfl
  | .number x => cases ha; cases hb; rfl
  | .string s => cases ha; cases hb; rfl
  | .array items =>
    cases ha with
    | array ha =>
      cases hb with
      | array hb => rw [ReorderedItems.unique items _ _ ha hb hsorted hsorted']
  | .object fields =>
    cases ha with
    | object ha hperm =>
      cases hb with
      | object hb hperm' =>
        have hinside := (everywhereFields_perm hperm).2 hsorted.2
        have hinside' := (everywhereFields_perm hperm').2 hsorted'.2
        obtain rfl := ReorderedFields.unique fields _ _ ha hb hinside hinside'
        -- The same fields in increasing order are the same list.
        rw [hsorted.1.eq_of_mem_iff hsorted'.1 fun field => (hperm.symm.trans hperm').mem_iff]

theorem ReorderedItems.unique (items as bs : List Json) (ha : ReorderedItems items as)
    (hb : ReorderedItems items bs) (hsorted : EverywhereItems InOrder as)
    (hsorted' : EverywhereItems InOrder bs) : as = bs := by
  match items with
  | [] => cases ha; cases hb; rfl
  | item :: rest =>
    cases ha with
    | cons ha harest =>
      cases hb with
      | cons hb hbrest =>
        rw [Reordered.unique item _ _ ha hb hsorted.1 hsorted'.1,
          ReorderedItems.unique rest _ _ harest hbrest hsorted.2 hsorted'.2]

theorem ReorderedFields.unique (fields as bs : List (String × Json))
    (ha : ReorderedFields fields as) (hb : ReorderedFields fields bs)
    (hsorted : EverywhereFields InOrder as)
    (hsorted' : EverywhereFields InOrder bs) : as = bs := by
  match fields with
  | [] => cases ha; cases hb; rfl
  | (key, value) :: rest =>
    cases ha with
    | cons _ ha harest =>
      cases hb with
      | cons _ hb hbrest =>
        rw [Reordered.unique value _ _ ha hb hsorted.1 hsorted'.1,
          ReorderedFields.unique rest _ _ harest hbrest hsorted.2 hsorted'.2]

end

/-! ## Sorting -/

theorem map_fst_sortedFields (fields : List (String × Json)) :
    (sortedFields fields).map Prod.fst = fields.map Prod.fst := by
  induction fields with
  | nil => rfl
  | cons field rest ih => rw [sortedFields, List.map_cons, ih, List.map_cons]

theorem Distinct.sortedFields (h : Distinct fields) : Distinct (sortedFields fields) := by
  rwa [Distinct, map_fst_sortedFields]

mutual

/-- Sorting changes nothing but the order of fields. -/
theorem reordered_sorted : (tree : Json) → Reordered tree tree.sorted
  | .null => .null
  | .number x => .number x
  | .string s => .string s
  | .array items => .array (reorderedItems_sorted items)
  | .object fields =>
    .object (reorderedFields_sorted fields) ((sortedFields fields).mergeSort_perm keyLE).symm

theorem reorderedItems_sorted : (items : List Json) → ReorderedItems items (sortedItems items)
  | [] => .nil
  | item :: rest => .cons (reordered_sorted item) (reorderedItems_sorted rest)

theorem reorderedFields_sorted :
    (fields : List (String × Json)) → ReorderedFields fields (sortedFields fields)
  | [] => .nil
  | (key, value) :: rest => .cons key (reordered_sorted value) (reorderedFields_sorted rest)

end

mutual

/-- Sorting brings the keys of every object in order, where none of them is there twice. -/
theorem sortedKeys_sorted : (tree : Json) → tree.DistinctKeys → tree.sorted.SortedKeys
  | .null, _ => trivial
  | .number _, _ => trivial
  | .string _, _ => trivial
  | .array items, h => sortedKeys_sortedItems items h
  | .object fields, h => by
    have hinside := sortedKeys_sortedFields fields h.2
    have hperm := (sortedFields fields).mergeSort_perm keyLE
    exact ⟨.mergeSort h.1.sortedFields, (everywhereFields_perm hperm).2 hinside⟩

theorem sortedKeys_sortedItems : (items : List Json) →
    EverywhereItems Distinct items → EverywhereItems InOrder (sortedItems items)
  | [], _ => trivial
  | item :: rest, h => ⟨sortedKeys_sorted item h.1, sortedKeys_sortedItems rest h.2⟩

theorem sortedKeys_sortedFields : (fields : List (String × Json)) →
    EverywhereFields Distinct fields → EverywhereFields InOrder (sortedFields fields)
  | [], _ => trivial
  | (_, value) :: rest, h => ⟨sortedKeys_sorted value h.1, sortedKeys_sortedFields rest h.2⟩

end

/-- **Sorting gives the one tree that says the same and has its keys in order.** -/
theorem sorted_eq_iff (h : a.DistinctKeys) :
    a.sorted = b ↔ Reordered a b ∧ b.SortedKeys := by
  constructor
  · rintro rfl
    exact ⟨reordered_sorted a, sortedKeys_sorted a h⟩
  · rintro ⟨hsame, hsorted⟩
    exact Reordered.unique a _ _ (reordered_sorted a) hsame (sortedKeys_sorted a h) hsorted

end Atelier.Json
