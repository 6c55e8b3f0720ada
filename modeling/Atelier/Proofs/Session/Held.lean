import Atelier.Proofs.Expression.Ledger
import Atelier.Session.Step

/-!
# The nodes that a session holds

A session holds a node when a value, a colour or a shape that has a name there is or holds a handle
on it. The same node may be held in many places.
-/

namespace Atelier

/-- The node of a value, if it is one. -/
def Value.nodes : Value → List Node
  | .number _ => []
  | .node n => [n]

/-- The nodes in the channels of a colour. -/
def Color.nodes (c : Color Value) : List Node :=
  c.channels.flatMap Value.nodes

/-- The nodes in the numbers and colours of a form. -/
def Form.nodes (form : Form Value (Color Value)) : List Node :=
  form.values.flatMap Value.nodes

namespace Shape

mutual

/-- The nodes in a tree of shapes. -/
def nodes : Shape → List Node
  | ⟨form, items, _⟩ => form.nodes ++ nodesOfItems items

/-- The nodes in a list of trees. -/
def nodesOfItems : List Shape → List Node
  | [] => []
  | item :: rest => item.nodes ++ nodesOfItems rest

end

variable {s item : Shape} {items : List Shape} {n : Node}

theorem nodes_eq (s : Shape) : s.nodes = s.form.nodes ++ nodesOfItems s.items := by
  cases s
  rw [nodes]

theorem nodesOfItems_append (items rest : List Shape) :
    nodesOfItems (items ++ rest) = nodesOfItems items ++ nodesOfItems rest := by
  induction items with
  | nil => rfl
  | cons item items ih => rw [List.cons_append, nodesOfItems, nodesOfItems, ih, List.append_assoc]

/-- A shape drawn on top brings its nodes. -/
theorem nodes_add (s item : Shape) : (s.add item).nodes = s.nodes ++ item.nodes := by
  have hone : nodesOfItems [item] = item.nodes := by simp [nodesOfItems]
  rw [nodes_eq, nodes_eq s, add, nodesOfItems_append, hone, List.append_assoc]

theorem nodes_qualify (s : Shape) (q : Qualifier) : (s.qualify q).nodes = s.nodes := by
  rw [nodes_eq, nodes_eq s, qualify]

end Shape

namespace Form

variable {form form' : Form Value (Color Value)} {name : String} {v w : Value}

/-- Replacing a number of a form brings no value but the new one. -/
theorem mem_values_set? (h : form.set? name v = some form') (hw : w ∈ form'.values) :
    w = v ∨ w ∈ form.values := by
  -- Whatever the form, a name is that of one number or of none.
  cases form with
  | _ =>
    simp only [set?] at h
    split at h
    all_goals cases h
    all_goals
      simp only [values, List.mem_append, List.mem_cons, List.not_mem_nil, or_false] at hw ⊢
      grind

theorem nodes_set? (h : form.set? name v = some form') : form'.nodes ⊆ v.nodes ++ form.nodes := by
  intro n hn
  obtain ⟨w, hw, hnw⟩ := List.mem_flatMap.1 hn
  rcases mem_values_set? h hw with rfl | hw
  · exact List.mem_append_left _ hnw
  · exact List.mem_append_right _ (List.mem_flatMap.2 ⟨w, hw, hnw⟩)

end Form

/-- The nodes that a session holds. -/
def Session.nodes (s : Session) : List Node :=
  s.values.flatMap (·.2.nodes) ++ s.colors.flatMap (·.2.nodes) ++ s.shapes.flatMap (·.2.nodes)

end Atelier
