import Atelier.Expression.Node
import Atelier.Proofs.Number.Plain
import Mathlib

/-!
# What the written form of an expression tells

The written form of an expression shows its operators, its numbers and its distributions. It does
not show which nodes are shared and what was sampled. Nothing else is lost: expressions with one
text are the same expression (`Node.text_eq_iff`), although `-` is an operator and a sign, and
distributions have brackets and commas of their own.

The word that a text starts with and the character behind it tell the variant of a node: an operator
starts with a bracket, a distribution with its name and a bracket, and a number has no bracket at
all. A number ends only where something else begins, so a node is told from its text with another
text behind it.
-/

namespace Atelier

open Text

/-- Whether a character can stand in a number or in the name of a distribution. -/
def isWordChar (c : Char) : Bool :=
  c ∉ ['(', ')', ' ', ',', '=']

theorem isWordChar_of_isPlainChar {c : Char} (h : Number.isPlainChar c = true) :
    isWordChar c = true := by
  rw [isWordChar, decide_eq_true_iff]
  intro hc
  simp only [List.mem_cons, List.not_mem_nil, or_false] at hc
  rcases hc with rfl | rfl | rfl | rfl | rfl
  all_goals cases h

theorem isWord_of_plain {text : List Char} (h : IsWord Number.isPlainChar text) :
    IsWord isWordChar text :=
  fun c hc => isWordChar_of_isPlainChar (h c hc)

/-! ## Distributions -/

namespace Distribution

/-- The name of the distributions of a family, of whole numbers or not. -/
def Family.name : Family → Bool → String
  | uniform, false => "UniformFloat"
  | uniform, true => "UniformInt"
  | normal, false => "NormalFloat"
  | normal, true => "NormalInt"

/-- The names of the two parameters. -/
def Family.labels : Family → String × String
  | uniform => ("low", "high")
  | normal => ("mean", "st_dev")

def name (d : Distribution) : String :=
  d.family.name d.isDiscrete

/-- The texts of the two parameters. -/
def parameters : Distribution → String × String
  | uniformFloat low high => (Number.plain low, Number.plain high)
  | uniformInt low high => (low.repr, high.repr)
  | normalFloat mean deviation => (Number.plain mean, Number.plain deviation)
  | normalInt mean deviation => (Number.plain mean, Number.plain deviation)

/-- What is written behind the name, and a text after it. -/
def behindName (d : Distribution) (after : List Char) : List Char :=
  '(' :: (d.family.labels.1.toList ++ '=' :: (d.parameters.1.toList ++ ',' :: ' ' ::
    (d.family.labels.2.toList ++ '=' :: (d.parameters.2.toList ++ ')' :: after))))

theorem toList_text_append (d : Distribution) (after : List Char) :
    d.text.toList ++ after = d.name.toList ++ d.behindName after := by
  cases d
  all_goals
    unfold text
    simp [name, behindName, family, isDiscrete, Family.name, Family.labels, parameters]

theorem Family.name_inj {f f' : Family} {discrete discrete' : Bool}
    (h : f.name discrete = f'.name discrete') : f = f' ∧ discrete = discrete' := by
  cases f <;> cases f' <;> cases discrete <;> cases discrete'
  all_goals first | exact ⟨rfl, rfl⟩ | exact absurd h (by decide)

theorem isWord_name (d : Distribution) : IsWord isWordChar d.name.toList := by
  cases d
  all_goals simp [IsWord, isWordChar, name, family, isDiscrete, Family.name]

theorem name_ne_nil (d : Distribution) : d.name.toList ≠ [] := by
  cases d
  all_goals simp [name, family, isDiscrete, Family.name]

theorem isWord_parameters (d : Distribution) :
    IsWord isWordChar d.parameters.1.toList ∧ IsWord isWordChar d.parameters.2.toList := by
  cases d with
  | uniformInt low high =>
    exact ⟨isWord_of_plain (Number.isWord_repr low), isWord_of_plain (Number.isWord_repr high)⟩
  | uniformFloat x y | normalFloat x y | normalInt x y =>
    exact ⟨isWord_of_plain (Number.isWord_plain x), isWord_of_plain (Number.isWord_plain y)⟩

/-- A distribution is its variant and the texts of its parameters. -/
theorem eq_of_parameters {d d' : Distribution} (hfamily : d.family = d'.family)
    (hdiscrete : d.isDiscrete = d'.isDiscrete) (h : d.parameters = d'.parameters) : d = d' := by
  have hplain {x x' y y' : Float}
      (h : (Number.plain x, Number.plain y) = (Number.plain x', Number.plain y')) :
      x = x' ∧ y = y' :=
    ⟨Number.plain_injective (Prod.mk.inj h).1, Number.plain_injective (Prod.mk.inj h).2⟩
  cases d with
  | uniformFloat x y =>
    cases d' with
    | uniformFloat x' y' => obtain ⟨rfl, rfl⟩ := hplain h; rfl
    | uniformInt _ _ => cases hdiscrete
    | normalFloat _ _ | normalInt _ _ => cases hfamily
  | uniformInt low high =>
    cases d' with
    | uniformInt low' high' =>
      obtain ⟨hlow, hhigh⟩ := Prod.mk.inj h
      rw [Int.repr_inj.1 hlow, Int.repr_inj.1 hhigh]
    | uniformFloat _ _ => cases hdiscrete
    | normalFloat _ _ | normalInt _ _ => cases hfamily
  | normalFloat x y =>
    cases d' with
    | normalFloat x' y' => obtain ⟨rfl, rfl⟩ := hplain h; rfl
    | normalInt _ _ => cases hdiscrete
    | uniformFloat _ _ | uniformInt _ _ => cases hfamily
  | normalInt x y =>
    cases d' with
    | normalInt x' y' => obtain ⟨rfl, rfl⟩ := hplain h; rfl
    | normalFloat _ _ => cases hdiscrete
    | uniformFloat _ _ | uniformInt _ _ => cases hfamily

/-- A distribution is known from its name and what is written behind it, and so is its end. -/
theorem behindName_inj {d d' : Distribution} {after after' : List Char}
    (hname : d.name = d'.name) (h : d.behindName after = d'.behindName after') :
    d = d' ∧ after = after' := by
  obtain ⟨hfamily, hdiscrete⟩ := Family.name_inj hname
  simp only [behindName, hfamily, List.cons.injEq, true_and, List.append_cancel_left_eq] at h
  obtain ⟨hfirst, h⟩ := word_append_inj d.isWord_parameters.1 d'.isWord_parameters.1
    (endsWord_cons.2 rfl) (endsWord_cons.2 rfl) h
  simp only [List.cons.injEq, true_and, List.append_cancel_left_eq] at h
  obtain ⟨hsecond, h⟩ := word_append_inj d.isWord_parameters.2 d'.isWord_parameters.2
    (endsWord_cons.2 rfl) (endsWord_cons.2 rfl) h
  have hparameters := Prod.ext (String.toList_inj.1 hfirst) (String.toList_inj.1 hsecond)
  exact ⟨eq_of_parameters hfamily hdiscrete hparameters, (List.cons.inj h).2⟩

end Distribution

/-! ## Nodes -/

namespace Node

/-- Whether two nodes are one expression: the same operators, numbers and distributions in the same
places. Which nodes are shared does not matter, and neither do the samples. -/
inductive SameExpression : Node → Node → Prop
  | scalar (i j : Nat) (x : Float) : SameExpression (.scalar i x) (.scalar j x)
  | leaf (i j : Nat) (d : Distribution) (x y : Float) :
      SameExpression (.leaf i d x) (.leaf j d y)
  | combinator {l l' r r' : Node} (i j : Nat) (op : Operator) (hl : SameExpression l l')
      (hr : SameExpression r r') : SameExpression (.combinator i op l r) (.combinator j op l' r')

/-- What a node is, apart from its parts. -/
inductive Variant where
  | scalar
  | leaf
  | combinator
deriving DecidableEq

def variant : Node → Variant
  | scalar .. => .scalar
  | leaf .. => .leaf
  | combinator .. => .combinator

/-- The word that the text of a node starts with. -/
def lead : Node → List Char
  | scalar _ x => (Number.plain x).toList
  | leaf _ d _ => d.name.toList
  | combinator .. => []

/-- What is written behind that word, and a text after it. -/
def behindLead : Node → List Char → List Char
  | scalar .., after => after
  | leaf _ d _, after => d.behindName after
  | n@(combinator ..), after => n.textBefore after

/-- Whether a node can end where a text begins. -/
def EndsNode (after : List Char) : Prop :=
  EndsWord isWordChar after ∧ after.head? ≠ some '('

theorem endsNode_nil : EndsNode [] :=
  ⟨endsWord_nil, nofun⟩

theorem endsNode_blank (rest : List Char) : EndsNode (' ' :: rest) :=
  ⟨endsWord_cons.2 rfl, by simp⟩

theorem endsNode_close (rest : List Char) : EndsNode (')' :: rest) :=
  ⟨endsWord_cons.2 rfl, by simp⟩

variable {a b : Node} {after after' : List Char}

theorem textBefore_eq_lead (n : Node) (after : List Char) :
    n.textBefore after = n.lead ++ n.behindLead after := by
  cases n with
  | scalar i x => rfl
  | leaf i d x => exact d.toList_text_append after
  | combinator i op l r => rfl

theorem isWord_lead (n : Node) : IsWord isWordChar n.lead := by
  cases n with
  | scalar i x => exact isWord_of_plain (Number.isWord_plain x)
  | leaf i d x => exact d.isWord_name
  | combinator i op l r => simp [IsWord, lead]

theorem endsWord_behindLead (n : Node) (h : EndsNode after) :
    EndsWord isWordChar (n.behindLead after) := by
  cases n with
  | scalar i x => exact h.1
  | leaf i d x => exact endsWord_cons.2 rfl
  | combinator i op l r => exact endsWord_cons.2 rfl

/-- The first word and what comes behind it are seen in the text. -/
theorem lead_inj (h : EndsNode after) (h' : EndsNode after')
    (htext : a.textBefore after = b.textBefore after') :
    a.lead = b.lead ∧ a.behindLead after = b.behindLead after' := by
  rw [textBefore_eq_lead, textBefore_eq_lead] at htext
  exact word_append_inj a.isWord_lead b.isWord_lead (a.endsWord_behindLead h)
    (b.endsWord_behindLead h') htext

/-- The variant of a node, told by the first word of its text and what comes behind it. -/
def variantOf (lead behind : List Char) : Variant :=
  if lead = [] then .combinator else if behind.head? = some '(' then .leaf else .scalar

theorem variant_eq (n : Node) (h : EndsNode after) :
    n.variant = variantOf n.lead (n.behindLead after) := by
  cases n with
  | scalar i x => exact ((if_neg (Number.plain_ne_nil x)).trans (if_neg h.2)).symm
  | leaf i d x => exact ((if_neg d.name_ne_nil).trans (if_pos rfl)).symm
  | combinator i op l r => exact (if_pos rfl).symm

theorem variant_inj (h : EndsNode after) (h' : EndsNode after')
    (htext : a.textBefore after = b.textBefore after') : a.variant = b.variant := by
  obtain ⟨hlead, hbehind⟩ := lead_inj h h' htext
  rw [a.variant_eq h, b.variant_eq h', hlead, hbehind]

theorem symbol_injective : Function.Injective Operator.symbol := by
  intro op op' h
  cases op <;> cases op' <;> first | rfl | exact absurd h (by decide)

/-- A node is known from a text that starts with it, and so is its end. -/
theorem textBefore_inj (h : EndsNode after) (h' : EndsNode after')
    (htext : a.textBefore after = b.textBefore after') : SameExpression a b ∧ after = after' := by
  induction a generalizing b after after' with
  | scalar i x =>
    have hvariant := variant_inj h h' htext
    obtain ⟨hlead, hbehind⟩ := lead_inj h h' htext
    cases b with
    | leaf | combinator => cases hvariant
    | scalar j y =>
      obtain rfl := Number.plain_injective (String.toList_inj.1 hlead)
      exact ⟨.scalar i j x, hbehind⟩
  | leaf i d x =>
    have hvariant := variant_inj h h' htext
    obtain ⟨hlead, hbehind⟩ := lead_inj h h' htext
    cases b with
    | scalar | combinator => cases hvariant
    | leaf j d' y =>
      obtain ⟨rfl, hafter⟩ := Distribution.behindName_inj (String.toList_inj.1 hlead) hbehind
      exact ⟨.leaf i j d x y, hafter⟩
  | combinator i op l r ihl ihr =>
    have hvariant := variant_inj h h' htext
    cases b with
    | scalar | leaf => cases hvariant
    | combinator j op' l' r' =>
      -- An operand ends at the blank behind it, or at the bracket that closes the operator.
      obtain ⟨hl, hbehind⟩ := ihl (endsNode_blank _) (endsNode_blank _) (List.cons.inj htext).2
      simp only [List.cons.injEq, true_and] at hbehind
      obtain ⟨hop, hright⟩ := hbehind
      obtain rfl := symbol_injective hop
      obtain ⟨hr, hafter⟩ := ihr (endsNode_close _) (endsNode_close _) hright
      exact ⟨.combinator i j op hl hr, (List.cons.inj hafter).2⟩

theorem SameExpression.textBefore_eq (h : SameExpression a b) (after : List Char) :
    a.textBefore after = b.textBefore after := by
  induction h generalizing after with
  | scalar i j x => rfl
  | leaf i j d x y => rfl
  | combinator i j op hl hr ihl ihr => rw [textBefore, textBefore, ihl, ihr]

/-- **The written form tells the expression.** Two nodes have one text exactly when they are the
same expression. Numbers are the same when all their bits are, so 0 and -0 are not, and there is one
NaN. -/
theorem text_eq_iff (a b : Node) : a.text = b.text ↔ SameExpression a b := by
  constructor
  · intro h
    exact (textBefore_inj endsNode_nil endsNode_nil (String.ofList_injective h)).1
  · intro h
    rw [text, text, h.textBefore_eq]

end Node

end Atelier
