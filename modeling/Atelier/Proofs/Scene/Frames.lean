import Atelier.Proofs.Expression.Making
import Atelier.Proofs.Session.Account
import Atelier.Scene.Gallery
import Mathlib.Tactic.Ring

/-!
# Frames of scenes

The tick has no part in what a scene asks of the random source: every frame asks for the same, in
the same order (`Scene.Steady`). So frames of different ticks that are drawn one after the other
from one studio stay in step, and no frame ever divides by a number that was drawn.
-/

namespace Atelier

/-! ## Shapes that are always written -/

/-- Whether a value is a plain number or a node that cannot divide by zero. -/
def Value.DividesSafely : Value → Prop
  | number _ => True
  | node n => n.DividesSafely

@[simp] theorem Value.dividesSafely_number (x : Float) : (number x).DividesSafely := trivial

@[simp] theorem Value.dividesSafely_node {n : Node} :
    (node n).DividesSafely ↔ n.DividesSafely :=
  Iff.rfl

namespace Shape

variable {s item : Shape} {items : List Shape} {form : Form Value (Color Value)} {n : Node}

/-- Whether no node of a shape can divide by zero. -/
def DividesSafely (s : Shape) : Prop :=
  ∀ n ∈ s.nodes, n.DividesSafely

/-- Whether a shape passes the check and is written, in every form there is. -/
structure Written (s : Shape) : Prop where
  check : s.resolveAll = .ok ()
  tree : ∃ tree, s.serialize = .ok tree
  text : ∃ text, s.toJson = .ok text
  prettyText : ∃ text, s.toPrettyJson = .ok text
  sortedTree : ∃ tree, s.toSortedJson = .ok tree

theorem DividesSafely.resolves (h : s.DividesSafely) : ∀ v ∈ s.document, v.Resolves := by
  intro v hv
  cases v with
  | number x => exact ⟨x, rfl⟩
  | node n =>
    refine (h n ?_).resolves
    rw [nodes_eq_document]
    exact List.mem_flatMap.2 ⟨_, hv, List.mem_singleton_self n⟩

theorem DividesSafely.written (h : s.DividesSafely) : s.Written := by
  obtain ⟨_, hcheck⟩ := s.worksOut_resolveAll.ok_iff.2 h.resolves
  have hserialize := s.discard_serialize
  have hchecked := s.discard_checked
  rw [hcheck] at hserialize hchecked
  obtain ⟨tree, htree⟩ := discard_eq_ok_iff.1 hserialize
  obtain ⟨tree', htree'⟩ := discard_eq_ok_iff.1 hchecked
  exact ⟨hcheck, ⟨tree, htree⟩, ⟨_, by rw [toJson, htree']; rfl⟩,
    ⟨_, by rw [toPrettyJson, htree']; rfl⟩, ⟨_, by rw [toSortedJson, htree']; rfl⟩⟩

theorem mem_nodesOfItems : n ∈ nodesOfItems items ↔ ∃ item ∈ items, n ∈ item.nodes := by
  induction items with
  | nil => simp [nodesOfItems]
  | cons item rest ih => simp [nodesOfItems, ih]

theorem dividesSafely_withItems (hform : ∀ v ∈ form.values, v.DividesSafely)
    (hitems : ∀ item ∈ items, item.DividesSafely) :
    (withItems (.ofForm form) items).DividesSafely := by
  intro n hn
  rw [nodes_eq, List.mem_append, mem_nodesOfItems] at hn
  rcases hn with hn | ⟨item, hitem, hn⟩
  · obtain ⟨v, hv, hnv⟩ := List.mem_flatMap.1 hn
    have hsafe := hform v hv
    cases v with
    | number x => cases hnv
    | node m =>
      obtain rfl := List.mem_singleton.1 hnv
      exact hsafe
  · exact hitems item hitem n hn

theorem dividesSafely_ofForm (hform : ∀ v ∈ form.values, v.DividesSafely) :
    (ofForm form).DividesSafely :=
  dividesSafely_withItems hform (by simp)

end Shape

/-! ## One frame after the other -/

namespace Scene

variable {s : Scene} {bill : List Demand} {still : Shape → Shape} {studio : Studio}
  {ticks ticks' : List UInt64} {i : Nat} {frame : Frame}

theorem frames_nil (s : Scene) (studio : Studio) : s.frames [] studio = ([], studio) := rfl

theorem frames_cons (s : Scene) (tick : UInt64) (rest : List UInt64) (studio : Studio) :
    s.frames (tick :: rest) studio =
      (⟨(s.draw tick studio).1, (s.draw tick studio).2.source.draws⟩ ::
        (s.frames rest (s.draw tick studio).2).1, (s.frames rest (s.draw tick studio).2).2) :=
  rfl

/-- A frame is what is drawn in the studio that the frames before it left. -/
theorem getElem?_frames (h : (s.frames ticks studio).1[i]? = some frame) :
    ∃ tick, frame.shape = (s.draw tick (s.frames (ticks.take i) studio).2).1 ∧
      frame.draws = (s.frames (ticks.take (i + 1)) studio).2.source.draws := by
  induction ticks generalizing studio i with
  | nil =>
    rw [frames_nil] at h
    cases h
  | cons tick rest ih =>
    rw [frames_cons] at h
    cases i with
    | zero =>
      obtain rfl := Option.some.inj h
      exact ⟨tick, rfl, rfl⟩
    | succ i =>
      rw [List.getElem?_cons_succ] at h
      exact ih h

theorem length_frames (s : Scene) (ticks : List UInt64) (studio : Studio) :
    (s.frames ticks studio).1.length = ticks.length := by
  induction ticks generalizing studio with
  | nil => rfl
  | cons tick rest ih => rw [frames_cons, List.length_cons, List.length_cons, ih]

/-- A scene that asks the same of the source for every tick and never divides by zero. Its frames
differ only in what `still` takes out of them. -/
structure Steady (s : Scene) (bill : List Demand) (still : Shape → Shape) : Prop where
  asks : ∀ tick, Making.Asks bill (s.draw tick)
  safe : ∀ tick, Making.Gives Shape.DividesSafely (s.draw tick)
  alike : ∀ tick tick', Making.Alike (fun shape shape' => still shape = still shape')
    (s.draw tick) (s.draw tick')

/-- Any number of frames asks for as many bills. -/
theorem Steady.source_frames (h : s.Steady bill still) (ticks : List UInt64) (studio : Studio) :
    (s.frames ticks studio).2.source =
      studio.source.after (List.replicate ticks.length bill).flatten := by
  induction ticks generalizing studio with
  | nil => rfl
  | cons tick rest ih =>
    rw [frames_cons, ih, h.asks tick studio, ← Random.Source.after_append]
    rfl

theorem Steady.draws_frames (h : s.Steady bill still) (ticks : List UInt64) (studio : Studio) :
    (s.frames ticks studio).2.source.draws =
      studio.source.draws +
        (bill.countP Demand.isLeaf + bill.countP Demand.isSample) * ticks.length := by
  rw [h.source_frames, Random.Source.draws_after, List.countP_flatten, List.countP_flatten]
  simp
  ring

theorem Steady.dividesSafely_frames (h : s.Steady bill still)
    (hframe : frame ∈ (s.frames ticks studio).1) : frame.shape.DividesSafely := by
  obtain ⟨i, hi⟩ := List.mem_iff_getElem?.1 hframe
  obtain ⟨tick, hshape, -⟩ := getElem?_frames hi
  rw [hshape]
  exact h.safe tick _

/-- **Frames stay in step**, whatever the ticks are. -/
theorem Steady.alike_frames (h : s.Steady bill still) (hlength : ticks.length = ticks'.length) :
    Making.Alike (List.Forall₂ fun frame frame' =>
        frame.draws = frame'.draws ∧ still frame.shape = still frame'.shape)
      (s.frames ticks) (s.frames ticks') := by
  induction ticks generalizing ticks' with
  | nil =>
    obtain rfl : ticks' = [] := List.length_eq_zero_iff.1 hlength.symm
    exact Making.alike_pure .nil
  | cons tick rest ih =>
    cases ticks' with
    | nil => cases hlength
    | cons tick' rest' =>
      intro studio
      obtain ⟨hstudio, hstill⟩ := h.alike tick tick' studio
      obtain ⟨hafter, hframes⟩ := ih (Nat.succ.inj hlength) (s.draw tick studio).2
      rw [frames_cons, frames_cons, ← hstudio]
      exact ⟨hafter, .cons ⟨rfl, hstill⟩ hframes⟩

end Scene

/-! ## The gallery -/

/-- A circle moved to the origin; other forms stay where they are. -/
def Form.pin {κ : Type} : Form Value κ → Form Value κ
  | circle _ _ r stroke fill => circle (.number 0) (.number 0) r stroke fill
  | form => form

def Shape.pin (s : Shape) : Shape :=
  { s with form := s.form.pin }

/-- A shape with the circles drawn on it moved to the origin. -/
def Shape.pinItems (s : Shape) : Shape :=
  s.withItems (s.items.map Shape.pin)

/-- Whether a shape is a circle that has a node for its size. -/
def Shape.IsCircleOf (size : Node) (s : Shape) : Prop :=
  ∃ cx cy fill, s.form = .circle cx cy (.node size) none fill

namespace Gallery

open Making

variable {radius size : Node}

/-- The one number by which a scene divides. -/
theorem six_ne_zero : ((6.0 : Float) == 0.0) = false := by decide

/-- Plain numbers place the group that the items of a scene are in. -/
theorem dividesSafely_group {x y width height : Float} :
    ∀ v ∈ Form.values (.group (.number x) (.number y) (.number width) (.number height)),
      v.DividesSafely := by
  simp [Form.values]

/-! ### Still scenes -/

theorem gives_coloredRectangle (n : Nat) : Gives Shape.DividesSafely (coloredRectangle n) := by
  refine (gives_leaf _).bind ?_
  intro y hy
  apply gives_pure
  apply Shape.dividesSafely_ofForm
  simpa [Form.values, Form.channels, Color.channels] using hy

theorem steady_coloredRectangles :
    coloredRectangles.Steady (List.replicate 5 (.leaf (.uniformFloat 10 20))) id where
  asks _ := (asks_mapM (fun n => (asks_leaf (.uniformFloat 10 20)).map _) _).map _
  safe _ := by
    refine (Gives.mapM gives_coloredRectangle _).bind ?_
    intro items hitems
    exact gives_pure (Shape.dividesSafely_withItems dividesSafely_group hitems.2)
  alike _ _ := alike_self _

theorem asks_tintedSquare :
    Asks [.leaf (.uniformFloat (-50) 50), .leaf (.uniformFloat 0 80), .leaf (.uniformFloat 0 80)]
      tintedSquare := by
  refine (asks_leaf _).bind ?_
  intro shift
  refine (asks_onValues .add ⟨.owned, .owned⟩ (.number 100.0) (.node shift)).bind ?_
  intro hue
  exact (asks_leaf _).bind fun x => (asks_leaf _).map _

theorem gives_tintedSquare : Gives Shape.DividesSafely tintedSquare := by
  refine (gives_leaf _).bind ?_
  intro shift hshift
  refine (gives_numberLeft .add 100.0 nofun hshift).bind ?_
  intro hue hhue
  refine (gives_leaf _).bind ?_
  intro x hx
  refine (gives_leaf _).bind ?_
  intro y hy
  apply gives_pure
  apply Shape.dividesSafely_withItems
  · simp [Form.values, Form.channels, Color.channels, hx, hy]
  · rw [List.forall_mem_singleton]
    apply Shape.dividesSafely_ofForm
    simpa [Form.values, Form.channels, Color.channels] using hhue

theorem steady_circleInSquares :
    circleInSquares.Steady ((List.range 20).flatMap fun _ =>
      [.leaf (.uniformFloat (-50) 50), .leaf (.uniformFloat 0 80), .leaf (.uniformFloat 0 80)])
      id where
  asks _ := (asks_mapM (fun _ => asks_tintedSquare) _).map _
  safe _ := by
    refine (Gives.mapM (fun _ => gives_tintedSquare) _).bind ?_
    intro items hitems
    exact gives_pure (Shape.dividesSafely_withItems dividesSafely_group hitems.2)
  alike _ _ := alike_self _

/-! ### Orbit -/

theorem asks_orbitingCircle (radius size : Node) (tick : UInt64) (k : Nat) :
    Asks [.leaf (.uniformInt 0 360)] (orbitingCircle radius size tick k) := by
  -- Only the hue is drawn: the place on the ring is worked out from the radius and the tick.
  refine (asks_onValues .multiply ⟨.owned, .owned⟩ (.node radius) (.number _)).bind ?_
  intro dx
  refine (asks_onValues .add ⟨.owned, .owned⟩ (.number 50.0) (.node dx)).bind ?_
  intro cx
  refine (asks_onValues .multiply ⟨.owned, .owned⟩ (.node radius) (.number _)).bind ?_
  intro dy
  refine (asks_onValues .add ⟨.owned, .owned⟩ (.number 50.0) (.node dy)).bind ?_
  intro cy
  exact (asks_leaf _).map _

/-- A circle of the ring has the size that it was given, and nothing in it divides. -/
theorem gives_orbitingCircle (hradius : radius.DividesSafely) (hsize : size.DividesSafely)
    (tick : UInt64) (k : Nat) :
    Gives (fun item => item.DividesSafely ∧ item.IsCircleOf size)
      (orbitingCircle radius size tick k) := by
  refine (gives_numberRight .multiply nofun hradius).bind ?_
  intro dx hdx
  refine (gives_numberLeft .add 50.0 nofun hdx).bind ?_
  intro cx hcx
  refine (gives_numberRight .multiply nofun hradius).bind ?_
  intro dy hdy
  refine (gives_numberLeft .add 50.0 nofun hdy).bind ?_
  intro cy hcy
  refine (gives_leaf _).bind ?_
  intro hue hhue
  refine gives_pure ⟨Shape.dividesSafely_ofForm ?_, _, _, _, rfl⟩
  simp [Form.values, Form.channels, Color.channels, hcx, hcy, hsize, hhue]

theorem alike_orbitingCircle (radius size : Node) (tick tick' : UInt64) (k : Nat) :
    Alike (fun item item' => item.pin = item'.pin)
      (orbitingCircle radius size tick k) (orbitingCircle radius size tick' k) := by
  -- The tick is in numbers alone. Whatever they are, the nodes on them are made all the same.
  refine (alike_numberRight .multiply radius _ _).bind ?_
  intro dx dx' _
  refine (alike_numberLeft .add dx dx' 50.0).bind ?_
  intro cx cx' _
  refine (alike_numberRight .multiply radius _ _).bind ?_
  intro dy dy' _
  refine (alike_numberLeft .add dy dy' 50.0).bind ?_
  intro cy cy' _
  refine (alike_self _).bind ?_
  rintro hue _ rfl
  exact alike_pure rfl

/-- The ring, once its radius and the size of its circles are made. -/
def ring (radius size : Node) (tick : UInt64) : Making Shape := do
  let items ← (List.range 8).mapM (orbitingCircle radius size tick)
  return Shape.withItems
    (.ofForm (.group (.number 0) (.number 0) (.number 100) (.number 100))) items

theorem draw_orbit (tick : UInt64) :
    orbit.draw tick = leaf (.normalFloat 30 5) >>= fun radius =>
      (scalar 6.0 >>= combinator .divide radius) >>= fun size => ring radius size tick :=
  rfl

/-- The circles of a ring have the one size that it was given. -/
theorem gives_ring (hradius : radius.DividesSafely) (hsize : size.DividesSafely) (tick : UInt64) :
    Gives (fun s => s.DividesSafely ∧ s.items.length = 8 ∧ ∀ item ∈ s.items, item.IsCircleOf size)
      (ring radius size tick) := by
  refine (Gives.mapM (gives_orbitingCircle hradius hsize tick) _).bind ?_
  intro items hitems
  obtain ⟨hlength, hcircles⟩ := hitems
  refine gives_pure ⟨?_, hlength, fun item hitem => (hcircles item hitem).2⟩
  exact Shape.dividesSafely_withItems dividesSafely_group fun item hitem => (hcircles item hitem).1

theorem alike_ring (radius size : Node) (tick tick' : UInt64) :
    Alike (fun s s' => s.pinItems = s'.pinItems) (ring radius size tick)
      (ring radius size tick') := by
  refine (Alike.mapM (alike_orbitingCircle radius size tick tick') _).bind ?_
  intro items items' h
  refine alike_pure (congrArg (Shape.withItems _) ?_)
  rwa [← List.forall₂_eq_eq_eq, List.forall₂_map_left_iff, List.forall₂_map_right_iff]

theorem steady_orbit :
    orbit.Steady (.leaf (.normalFloat 30 5) :: List.replicate 8 (.leaf (.uniformInt 0 360)))
      Shape.pinItems where
  asks tick :=
    (asks_leaf _).bind fun radius =>
      (asks_onValues .divide ⟨.owned, .owned⟩ (.node radius) (.number 6.0)).bind fun size =>
        (asks_mapM (asks_orbitingCircle radius size tick) _).map _
  safe tick := by
    rw [draw_orbit]
    refine (gives_leaf _).bind ?_
    intro radius hradius
    refine (gives_numberRight .divide (fun _ => six_ne_zero) hradius).bind ?_
    intro size hsize
    exact fun studio => (gives_ring hradius hsize tick studio).1
  alike tick tick' := by
    rw [draw_orbit, draw_orbit]
    refine (alike_self _).bind ?_
    rintro radius _ rfl
    refine (alike_self _).bind ?_
    rintro size _ rfl
    exact alike_ring radius size tick tick'

/-- The size of the circles is a sixth of the radius, which is drawn first. -/
theorem exists_size_orbit (tick : UInt64) (studio : Studio) :
    ∃ size : Node,
      size.resolve = .ok (((Distribution.normalFloat 30 5).sample studio.source).1 / 6.0) ∧
      (orbit.draw tick studio).1.items.length = 8 ∧
      ∀ item ∈ (orbit.draw tick studio).1.items, item.IsCircleOf size := by
  -- The studio before the frame is that of the first draw, so the two nodes are taken one by one.
  have hradius := gives_leaf (.normalFloat 30 5) studio
  have hsize := gives_numberRight .divide (fun _ => six_ne_zero) hradius
    (leaf (.normalFloat 30 5) studio).2
  have hresolve : ((scalar 6.0 >>= combinator .divide (leaf (.normalFloat 30 5) studio).1)
      (leaf (.normalFloat 30 5) studio).2).1.resolve =
        Operator.apply .divide ((Distribution.normalFloat 30 5).sample studio.source).1 6.0 := rfl
  rw [Operator.apply, six_ne_zero] at hresolve
  rw [draw_orbit, bind_apply, bind_apply]
  exact ⟨_, hresolve, (gives_ring hradius hsize tick _).2⟩

/-! ### All scenes -/

/-- A scene with the number of draws that a frame of it takes, and with what takes out of a frame
all that the tick has a part in. -/
structure Account where
  scene : Scene
  draws : Nat
  still : Shape → Shape

def accounts : List Account :=
  [⟨coloredRectangles, 5, id⟩, ⟨circleInSquares, 60, id⟩, ⟨orbit, 9, Shape.pinItems⟩]

theorem steady_of_mem_accounts {a : Account} (h : a ∈ accounts) :
    ∃ bill, a.scene.Steady bill a.still ∧
      bill.countP Demand.isLeaf + bill.countP Demand.isSample = a.draws := by
  simp only [accounts, List.mem_cons, List.not_mem_nil, or_false] at h
  obtain rfl | rfl | rfl := h
  · exact ⟨_, steady_coloredRectangles, rfl⟩
  · exact ⟨_, steady_circleInSquares, rfl⟩
  · exact ⟨_, steady_orbit, rfl⟩

/-- **Frames never fail, and the tick leaves the random stream alone.** From whatever studio the
frames of two lists of ticks are drawn: every frame is written, and would be whatever had been
sampled for it; after each frame both runs have taken the same fixed number of draws and leave the
same studio; and the frames are the same but for the centres of the circles that orbit. The circles
of one frame of these have one size, which is worked out from the radius that the frame drew. -/
theorem frames_in_step :
    accounts.map Account.scene = scenes ∧
    (∀ a ∈ accounts, ∀ (studio : Studio) (ticks ticks' : List UInt64),
      ticks.length = ticks'.length →
      (a.scene.frames ticks studio).1.length = ticks.length ∧
      (∀ frame ∈ (a.scene.frames ticks studio).1, frame.shape.Written ∧
        ∀ n ∈ frame.shape.nodes, ∀ samples, ∃ x, (n.resampled samples).resolve = .ok x) ∧
      (∀ i frame, (a.scene.frames ticks studio).1[i]? = some frame →
        frame.draws = studio.source.draws + a.draws * (i + 1)) ∧
      (∀ i, (a.scene.frames (ticks.take i) studio).2 =
        (a.scene.frames (ticks'.take i) studio).2) ∧
      List.Forall₂ (fun frame frame' =>
          frame.draws = frame'.draws ∧ a.still frame.shape = a.still frame'.shape)
        (a.scene.frames ticks studio).1 (a.scene.frames ticks' studio).1) ∧
    ∀ (studio : Studio) (ticks : List UInt64) (i : Nat) (frame : Frame),
      (orbit.frames ticks studio).1[i]? = some frame →
      ∃ size : Node,
        size.resolve = .ok (((Distribution.normalFloat 30 5).sample
          (orbit.frames (ticks.take i) studio).2.source).1 / 6.0) ∧
        frame.shape.items.length = 8 ∧
        ∀ item ∈ frame.shape.items, item.IsCircleOf size := by
  refine ⟨rfl, ?_, ?_⟩
  · intro a ha studio ticks ticks' hlength
    obtain ⟨bill, hsteady, hdraws⟩ := steady_of_mem_accounts ha
    refine ⟨a.scene.length_frames ticks studio, ?_, ?_, ?_, (hsteady.alike_frames hlength studio).2⟩
    · intro frame hframe
      have hsafe := hsteady.dividesSafely_frames hframe
      exact ⟨hsafe.written, fun n hn samples => ((hsafe n hn).resampled samples).resolves⟩
    · intro i frame hframe
      obtain ⟨tick, -, hcount⟩ := Scene.getElem?_frames hframe
      have hi : i < ticks.length := by
        rw [← a.scene.length_frames ticks studio]
        exact (List.getElem?_eq_some_iff.1 hframe).1
      rw [hcount, hsteady.draws_frames, hdraws, List.length_take_of_le hi]
    · -- The first frames of both runs are runs of ticks themselves.
      intro i
      have htake : (ticks.take i).length = (ticks'.take i).length := by simp [hlength]
      exact (hsteady.alike_frames htake studio).1
  · intro studio ticks i frame hframe
    obtain ⟨tick, hshape, -⟩ := Scene.getElem?_frames hframe
    rw [hshape]
    exact exists_size_orbit tick _

/-- Two frames of the ring at ticks far apart, and the size of the circles in the second one. -/
theorem frames_in_step_orbit :
    let studio := (Session.ofSeed 1).studio
    (orbit.frames [0, 7] studio).2 = (orbit.frames [90, 3] studio).2 ∧
      List.Forall₂ (fun frame frame' =>
          frame.draws = frame'.draws ∧ frame.shape.pinItems = frame'.shape.pinItems)
        (orbit.frames [0, 7] studio).1 (orbit.frames [90, 3] studio).1 ∧
      ∃ frame, (orbit.frames [0, 7] studio).1[1]? = some frame ∧
        ∃ size : Node, ∀ item ∈ frame.shape.items, item.IsCircleOf size := by
  intro studio
  have horbit : (⟨orbit, 9, Shape.pinItems⟩ : Account) ∈ accounts := by simp [accounts]
  have hsteps := frames_in_step.2.1 _ horbit studio [0, 7] [90, 3] rfl
  dsimp only at hsteps
  obtain ⟨hlength, -, -, hstudio, hframes⟩ := hsteps
  have hafter := hstudio 2
  rw [List.take_of_length_le (by simp), List.take_of_length_le (by simp)] at hafter
  have hsecond := List.getElem?_eq_getElem (l := (orbit.frames [0, 7] studio).1) (i := 1)
    (by rw [hlength]; decide)
  obtain ⟨size, -, -, hcircles⟩ := frames_in_step.2.2 studio [0, 7] 1 _ hsecond
  exact ⟨hafter, hframes, _, hsecond, size, hcircles⟩

end Gallery

end Atelier
