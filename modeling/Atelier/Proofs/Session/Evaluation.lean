import Atelier.Proofs.Session.Calls

/-!
# Evaluating descriptions by library calls

Making a value, a colour or a shape from its description is a run of library calls, and every node
in what was made is built in it. The proofs go along the descriptions.
-/

namespace Atelier

open Acting

variable {given : List Node}

namespace Expr

theorem follows_eval (e : Expr) : Follows given e.eval Value.nodes := by
  induction e generalizing given with
  | number x => exact follows_pure (List.nil_subset _)
  | named name =>
    refine follows_named name fun s e he n hn => ?_
    rw [Session.nodes, List.append_assoc]
    exact List.mem_append_left _ (List.mem_flatMap.2 ⟨e, he, hn⟩)
  | scalar x =>
    exact (follows_scalar given x).bind fun n => follows_pure (List.subset_append_left _ _)
  | leaf d =>
    exact (follows_leaf given d).bind fun n => follows_pure (List.subset_append_left _ _)
  | method m target argument ihTarget ihArgument =>
    refine ihTarget.bind fun v => ihArgument.bind fun w => Follows.bind ?_ fun n =>
      follows_pure (List.subset_append_left _ _)
    rw [make_bind]
    exact (follows_lift (by simp)).bind fun n => follows_call m (by simp) (by simp)
  | operator op left right how ihLeft ihRight =>
    refine ihLeft.bind fun v => ihRight.bind fun w => Follows.bind ?_ fun n =>
      follows_pure (List.subset_append_left _ _)
    exact follows_onValues op how (by simp) (by simp)
  | chain m start argument times ihStart ihArgument =>
    refine ihStart.bind fun v => ihArgument.bind fun w => Follows.bind ?_ fun n =>
      follows_pure (List.subset_append_left _ _)
    rw [make_bind]
    exact (follows_lift (by simp)).bind fun n => follows_callTimes m times (by simp) (by simp)
  | double m start times ihStart =>
    refine ihStart.bind fun v => Follows.bind ?_ fun n =>
      follows_pure (List.subset_append_left _ _)
    rw [make_bind]
    exact (follows_lift (by simp)).bind fun n => follows_callOnSelf m times (by simp)

theorem follows_evalNode (e : Expr) : Follows given e.evalNode ([·]) :=
  e.follows_eval.bind fun _ => follows_lift (List.subset_append_left _ _)

end Expr

namespace ColorExpr

theorem follows_eval (c : ColorExpr) : Follows given c.eval Color.nodes := by
  cases c with
  | named name =>
    refine follows_named name fun s e he n hn => ?_
    rw [Session.nodes]
    exact List.mem_append_left _ (List.mem_append_right _ (List.mem_flatMap.2 ⟨e, he, hn⟩))
  | made c =>
    cases c with
    | hsla hue saturation luminance alpha | rgba hue saturation luminance alpha =>
      refine hue.follows_eval.bind fun a => saturation.follows_eval.bind fun b =>
        luminance.follows_eval.bind fun c => alpha.follows_eval.bind fun d => follows_pure ?_
      exact fun n hn => by grind [Color.nodes, Color.channels]
    | css text => exact follows_pure (List.nil_subset _)

/-- The nodes in the channels of a colour, if there is one. -/
def nodesOf (c : Option (Color Value)) : List Node :=
  (Form.channels c).flatMap Value.nodes

theorem follows_mapColor (c : Option ColorExpr) :
    Follows given (Form.mapColor ColorExpr.eval c) nodesOf := by
  cases c with
  | none => exact follows_pure (List.nil_subset _)
  | some c => exact c.follows_eval.bind fun _ => follows_pure (List.subset_append_left _ _)

end ColorExpr

namespace ShapeExpr

theorem follows_mapM (form : Form Expr ColorExpr) :
    Follows given (form.mapM Expr.eval ColorExpr.eval) Form.nodes := by
  cases form with
  | rect x y width height stroke fill =>
    refine x.follows_eval.bind fun a => y.follows_eval.bind fun b =>
      width.follows_eval.bind fun c => height.follows_eval.bind fun d =>
        (ColorExpr.follows_mapColor stroke).bind fun e =>
          (ColorExpr.follows_mapColor fill).bind fun f => follows_pure fun n hn => ?_
    grind [Form.nodes, Form.values, ColorExpr.nodesOf]
  | square x y side stroke fill =>
    refine x.follows_eval.bind fun a => y.follows_eval.bind fun b => side.follows_eval.bind fun c =>
      (ColorExpr.follows_mapColor stroke).bind fun d =>
        (ColorExpr.follows_mapColor fill).bind fun e => follows_pure fun n hn => ?_
    grind [Form.nodes, Form.values, ColorExpr.nodesOf]
  | ellipse cx cy rx ry stroke fill =>
    refine cx.follows_eval.bind fun a => cy.follows_eval.bind fun b => rx.follows_eval.bind fun c =>
      ry.follows_eval.bind fun d => (ColorExpr.follows_mapColor stroke).bind fun e =>
        (ColorExpr.follows_mapColor fill).bind fun f => follows_pure fun n hn => ?_
    grind [Form.nodes, Form.values, ColorExpr.nodesOf]
  | circle cx cy r stroke fill =>
    refine cx.follows_eval.bind fun a => cy.follows_eval.bind fun b => r.follows_eval.bind fun c =>
      (ColorExpr.follows_mapColor stroke).bind fun d =>
        (ColorExpr.follows_mapColor fill).bind fun e => follows_pure fun n hn => ?_
    grind [Form.nodes, Form.values, ColorExpr.nodesOf]
  | polygon cx cy r sides stroke fill =>
    refine cx.follows_eval.bind fun a => cy.follows_eval.bind fun b => r.follows_eval.bind fun c =>
      sides.follows_eval.bind fun d => (ColorExpr.follows_mapColor stroke).bind fun e =>
        (ColorExpr.follows_mapColor fill).bind fun f => follows_pure fun n hn => ?_
    grind [Form.nodes, Form.values, ColorExpr.nodesOf]
  | line x0 y0 x1 y1 stroke =>
    refine x0.follows_eval.bind fun a => y0.follows_eval.bind fun b => x1.follows_eval.bind fun c =>
      y1.follows_eval.bind fun d => (ColorExpr.follows_mapColor stroke).bind fun e =>
        follows_pure fun n hn => ?_
    grind [Form.nodes, Form.values, ColorExpr.nodesOf]
  | group x y width height =>
    refine x.follows_eval.bind fun a => y.follows_eval.bind fun b =>
      width.follows_eval.bind fun c => height.follows_eval.bind fun d => follows_pure fun n hn => ?_
    grind [Form.nodes, Form.values]

mutual

theorem follows_eval {given : List Node} : (s : ShapeExpr) → Follows given s.eval Shape.nodes
  | named name => by
    rw [eval]
    refine follows_named name fun s e he n hn => ?_
    rw [Session.nodes]
    exact List.mem_append_right _ (List.mem_flatMap.2 ⟨e, he, hn⟩)
  | made form items qualifiers => by
    rw [eval]
    refine (follows_mapM form).bind fun form => (follows_evalItems items).bind fun items =>
      follows_pure ?_
    rw [Shape.nodes]
    exact List.append_subset.2 ⟨by simp, by simp⟩

theorem follows_evalItems {given : List Node} :
    (items : List ShapeExpr) → Follows given (evalItems items) Shape.nodesOfItems
  | [] => by
    rw [evalItems]
    exact follows_pure (List.nil_subset _)
  | item :: rest => by
    rw [evalItems]
    refine (follows_eval item).bind fun shape => (follows_evalItems rest).bind fun shapes =>
      follows_pure ?_
    rw [Shape.nodesOfItems]
    exact List.append_subset.2 ⟨by simp, by simp⟩

end

end ShapeExpr

end Atelier
