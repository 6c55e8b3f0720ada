import Atelier.Proofs.Drawing.View
import Atelier.Proofs.Scene.Frames
import Atelier.Proofs.Session.Stream

/-!
# Scenes after a seed

What a scene shows depends on the generator of the studio that it is drawn in. The identities that
were given out before and the draws that were counted are in none of the texts. So a scene drawn
after a seed shows the same whatever was made before the seed (`Gallery.view_draw_eq`).

The shapes themselves are not equal, as their nodes have other identities. Nodes are compared by
their values and shapes by their views.
-/

namespace Atelier

/-- Whether two studios draw the same numbers from now on. -/
def Studio.InStep (studio studio' : Studio) : Prop :=
  studio.source.generator = studio'.source.generator

/-- Whether two nodes have the same value, whatever nodes they are. -/
def Node.SameValue (n n' : Node) : Prop :=
  n.resolve = n'.resolve

namespace Shape

variable {form form' : Form Value (Color Value)} {items items' : List Shape}

/-- Whether two shapes show the same. -/
def SameView (s s' : Shape) : Prop :=
  s.view = s'.view

theorem viewItems_congr (h : List.Forall₂ SameView items items') :
    viewItems items = viewItems items' := by
  induction h with
  | nil => rfl
  | cons hitem _ ih => rw [viewItems, viewItems, hitem, ih]

theorem sameView_withItems (hform : form.shown = form'.shown)
    (hitems : List.Forall₂ SameView items items') :
    SameView (withItems (.ofForm form) items) (withItems (.ofForm form') items') := by
  rw [SameView, withItems, withItems, ofForm, ofForm, view, view, hform, viewItems_congr hitems]

theorem sameView_ofForm (hform : form.shown = form'.shown) :
    SameView (ofForm form) (ofForm form') :=
  sameView_withItems hform .nil

end Shape

/-! ## Making nodes in step -/

namespace Making

open Node (SameValue)

variable {n n' l l' r r' : Node}

/-- A sample is all that a leaf shows, and it comes from the generator. -/
theorem coupled_leaf (d : Distribution) : Coupled Studio.InStep SameValue (leaf d) (leaf d) := by
  have hvalue : ∀ studio, (leaf d studio).1.resolve = .ok (d.sample studio.source).1 :=
    fun _ => rfl
  have hsource : ∀ studio, (leaf d studio).2.source = (d.sample studio.source).2 := fun _ => rfl
  intro studio studio' h
  rw [Studio.InStep] at h
  rw [Studio.InStep, SameValue, hvalue, hvalue, hsource, hsource, d.sample_eq, d.sample_eq, h]
  exact ⟨rfl, rfl⟩

theorem sameValue_combinator {i i' : Nat} (op : Operator) (hl : SameValue l l')
    (hr : SameValue r r') : SameValue (.combinator i op l r) (.combinator i' op l' r') := by
  rw [SameValue] at hl hr
  rw [SameValue, Node.resolve, Node.resolve, hl, hr]

theorem coupled_numberRight (op : Operator) (x : Float) (hn : SameValue n n') :
    Coupled Studio.InStep SameValue (scalar x >>= combinator op n)
      (scalar x >>= combinator op n') :=
  fun _ _ h => ⟨h, sameValue_combinator op hn rfl⟩

theorem coupled_numberLeft (op : Operator) (x : Float) (hn : SameValue n n') :
    Coupled Studio.InStep SameValue (scalar x >>= (combinator op · n))
      (scalar x >>= (combinator op · n')) :=
  fun _ _ h => ⟨h, sameValue_combinator op rfl hn⟩

end Making

/-! ## The gallery in step -/

namespace Gallery

open Making
open Node (SameValue)
open Shape (SameView)

variable {radius radius' size size' : Node}

/-- A form that carries items shows the same if all its items do. -/
theorem coupled_withItems {item item' : Nat → Making Shape} (form : Form Value (Color Value))
    (h : ∀ k, Coupled Studio.InStep SameView (item k) (item' k)) (places : List Nat) :
    Coupled Studio.InStep SameView
      (places.mapM item >>= fun items => pure (Shape.withItems (.ofForm form) items))
      (places.mapM item' >>= fun items => pure (Shape.withItems (.ofForm form) items)) := by
  refine (Coupled.mapM h places).bind ?_
  intro items items' hitems
  exact coupled_pure (Shape.sameView_withItems rfl hitems)

theorem coupled_coloredRectangle (n : Nat) :
    Coupled Studio.InStep SameView (coloredRectangle n) (coloredRectangle n) := by
  refine (coupled_leaf _).bind ?_
  intro y y' hy
  apply coupled_pure
  apply Shape.sameView_ofForm
  rw [SameValue] at hy
  simp only [Form.shown, Form.mapM, Value.resolve, hy]

theorem coupled_coloredRectangles (tick : UInt64) :
    Coupled Studio.InStep SameView (coloredRectangles.draw tick) (coloredRectangles.draw tick) :=
  coupled_withItems _ coupled_coloredRectangle _

theorem coupled_tintedSquare : Coupled Studio.InStep SameView tintedSquare tintedSquare := by
  refine (coupled_leaf _).bind ?_
  intro shift shift' hshift
  refine (coupled_numberLeft .add 100.0 hshift).bind ?_
  intro hue hue' hhue
  refine (coupled_leaf _).bind ?_
  intro x x' hx
  refine (coupled_leaf _).bind ?_
  intro y y' hy
  apply coupled_pure
  rw [SameValue] at hhue hx hy
  apply Shape.sameView_withItems
  · simp only [Form.shown, Form.mapM, Value.resolve, hx, hy]
  · refine .cons (Shape.sameView_ofForm ?_) .nil
    simp only [Form.shown, Form.mapM, Form.mapColor, Color.toCss, Color.mapM, Value.resolve, hhue]

theorem coupled_circleInSquares (tick : UInt64) :
    Coupled Studio.InStep SameView (circleInSquares.draw tick) (circleInSquares.draw tick) :=
  coupled_withItems _ (fun _ => coupled_tintedSquare) _

theorem coupled_orbitingCircle (hradius : SameValue radius radius') (hsize : SameValue size size')
    (tick : UInt64) (k : Nat) :
    Coupled Studio.InStep SameView (orbitingCircle radius size tick k)
      (orbitingCircle radius' size' tick k) := by
  refine (coupled_numberRight .multiply _ hradius).bind ?_
  intro dx dx' hdx
  refine (coupled_numberLeft .add 50.0 hdx).bind ?_
  intro cx cx' hcx
  refine (coupled_numberRight .multiply _ hradius).bind ?_
  intro dy dy' hdy
  refine (coupled_numberLeft .add 50.0 hdy).bind ?_
  intro cy cy' hcy
  refine (coupled_leaf _).bind ?_
  intro hue hue' hhue
  apply coupled_pure
  apply Shape.sameView_ofForm
  rw [SameValue] at hcx hcy hsize hhue
  simp only [Form.shown, Form.mapM, Form.mapColor, Color.toCss, Color.mapM, Value.resolve, hcx, hcy,
    hsize, hhue]

theorem coupled_orbit (tick : UInt64) :
    Coupled Studio.InStep SameView (orbit.draw tick) (orbit.draw tick) := by
  rw [draw_orbit]
  refine (coupled_leaf _).bind ?_
  intro radius radius' hradius
  refine (coupled_numberRight .divide 6.0 hradius).bind ?_
  intro size size' hsize
  exact coupled_withItems _ (coupled_orbitingCircle hradius hsize tick) _

variable {s : Scene} {name : String}

/-- **A scene shows what its generator gives.** In studios with the same generator it shows the
same, whatever was made and drawn there before. -/
theorem view_draw_eq (hs : s ∈ scenes) (tick : UInt64) {studio studio' : Studio}
    (h : studio.InStep studio') : (s.draw tick studio).1.view = (s.draw tick studio').1.view := by
  simp only [scenes, List.mem_cons, List.not_mem_nil, or_false] at hs
  obtain rfl | rfl | rfl := hs
  · exact (coupled_coloredRectangles tick studio studio' h).2
  · exact (coupled_circleInSquares tick studio studio' h).2
  · exact (coupled_orbit tick studio studio' h).2

/-- Every scene is written. -/
theorem written_draw (hs : s ∈ scenes) (tick : UInt64) (studio : Studio) :
    (s.draw tick studio).1.Written := by
  have haccount : s ∈ accounts.map Account.scene := hs
  obtain ⟨a, ha, rfl⟩ := List.mem_map.1 haccount
  obtain ⟨bill, hsteady, -⟩ := steady_of_mem_accounts ha
  exact (hsteady.safe tick studio).written

/-! ### By name -/

/-- No two scenes have one name. -/
theorem find?_of_mem (hs : s ∈ scenes) : find? s.name = some s := by
  simp only [scenes, List.mem_cons, List.not_mem_nil, or_false] at hs
  obtain rfl | rfl | rfl := hs <;> rfl

theorem find?_eq_none (h : name ∉ names) : find? name = none := by
  rw [find?, List.find?_eq_none]
  rintro s hs hname
  exact h (beq_iff_eq.1 hname ▸ List.mem_map_of_mem hs)

end Gallery

end Atelier
