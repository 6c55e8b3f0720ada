import Atelier.Proofs.Expression.Formula
import Mathlib.Logic.Relation

/-!
# Runs of library calls

A ledger goes along with a studio: it notes the sample of each leaf when the leaf is made, and each
node with the formula it was built from. A call of the library is one way to go on from a ledger
(`Ledger.Call`). Handles are copied and put into colours and shapes without a call, and writing an
expression down only looks at it.

Resolving is a call as well, and here it is one that could do harm: it looks for the sample of a
leaf in a cell that is filled on first use (`Ledger.workOut`). It never does, since nodes stand for
their formulas after every call (`Ledger.Sound`), and then the cells of their leaves are full.
-/

namespace Atelier

/-- A studio, the samples drawn for leaves in it, and the nodes built in it. -/
structure Ledger where
  studio : Studio
  record : Record
  built : List (Node × Formula)

namespace Ledger

/-- The ledger of a studio in which nothing was made yet that is of interest. -/
def opening (studio : Studio) : Ledger :=
  ⟨studio, [], []⟩

/-- Whether a value stands for a formula: a plain number for itself, a node for what it was built
from. -/
inductive Has (ledger : Ledger) : Value → Formula → Prop
  | number (x : Float) : Has ledger (.number x) (.number x)
  | node {n : Node} {f : Formula} (h : (n, f) ∈ ledger.built) : Has ledger (.node n) f

/-- The ledger after an action built a node from a formula. -/
def build (ledger : Ledger) (action : Making Node) (f : Formula) : Ledger :=
  let (n, studio) := action ledger.studio
  { ledger with studio, built := (n, f) :: ledger.built }

/-- The ledger after a leaf was made: the sample is the one that its distribution gives right
then. -/
def buildLeaf (ledger : Ledger) (d : Distribution) : Ledger :=
  let (n, studio) := Making.leaf d ledger.studio
  let (x, _) := d.sample ledger.studio.source
  ⟨studio, (n.identity, x) :: ledger.record, (n, .draw n.identity) :: ledger.built⟩

/-- The sample in the cell of a leaf, drawn into the cell if there is none yet. -/
def cell (i : Nat) (d : Distribution) (ledger : Ledger) : Float × Ledger :=
  match ledger.record.lookup i with
  | some x => (x, ledger)
  | none =>
    let (x, source) := d.sample ledger.studio.source
    (x, { ledger with studio.source := source, record := (i, x) :: ledger.record })

/-- Works out a node by the cells of its leaves, whatever samples are in the leaves themselves. -/
def workOut : Node → Ledger → Except DivisionByZero Float × Ledger
  | .scalar _ x, ledger => (.ok x, ledger)
  | .leaf i d _, ledger =>
    let (x, ledger) := cell i d ledger
    (.ok x, ledger)
  | .combinator _ op left right, ledger =>
    match workOut left ledger with
    | (.error e, ledger) => (.error e, ledger)
    | (.ok l, ledger) =>
      match workOut right ledger with
      | (.error e, ledger) => (.error e, ledger)
      | (.ok r, ledger) => (op.apply l r, ledger)

/-- One call of the library. -/
inductive Call : Ledger → Ledger → Prop
  | seed (ledger : Ledger) (seed : UInt64) :
      Call ledger { ledger with studio.source := ledger.studio.source.reseed seed }
  | sample (ledger : Ledger) (d : Distribution) :
      Call ledger { ledger with studio := (Making.sample d ledger.studio).2 }
  | scalar (ledger : Ledger) (x : Float) :
      Call ledger (ledger.build (Making.scalar x) (.number x))
  | leaf (ledger : Ledger) (d : Distribution) : Call ledger (ledger.buildLeaf d)
  | lift {ledger : Ledger} {v : Value} {f : Formula} (hv : ledger.Has v f) :
      Call ledger (ledger.build v.lift f)
  | combinator {ledger : Ledger} {l r : Node} {f g : Formula} (op : Operator)
      (hl : (l, f) ∈ ledger.built) (hr : (r, g) ∈ ledger.built) :
      Call ledger (ledger.build (Making.combinator op l r) (.apply op f g))
  | method {ledger : Ledger} {n : Node} {v : Value} {f g : Formula} (m : Method)
      (hn : (n, f) ∈ ledger.built) (hv : ledger.Has v g) :
      Call ledger (ledger.build (m.call n v) (m.formula f g))
  | operator {ledger : Ledger} {l r : Value} {f g : Formula} (op : Operator) (how : Variant)
      (hl : ledger.Has l f) (hr : ledger.Has r g) :
      Call ledger (ledger.build (op.onValues how l r) (.apply op f g))
  | left {ledger : Ledger} {i : Nat} {op op' : Operator} {l r : Node} {f g : Formula}
      (hn : (.combinator i op l r, .apply op' f g) ∈ ledger.built) :
      Call ledger { ledger with built := (l, f) :: ledger.built }
  | right {ledger : Ledger} {i : Nat} {op op' : Operator} {l r : Node} {f g : Formula}
      (hn : (.combinator i op l r, .apply op' f g) ∈ ledger.built) :
      Call ledger { ledger with built := (r, g) :: ledger.built }
  | resolve {ledger : Ledger} {n : Node} {f : Formula} (hn : (n, f) ∈ ledger.built) :
      Call ledger (workOut n ledger).2

/-- Any number of calls. -/
abbrev Run := Relation.ReflTransGen Call

variable {ledger ledger' : Ledger} {action : Making Node} {n : Node} {v : Value} {f : Formula}

/-! ## What holds at every point of a run -/

/-- Whether all that was built stands for its formula, and each leaf has its own sample on
record. -/
structure Sound (ledger : Ledger) : Prop where
  stands : ∀ n f, (n, f) ∈ ledger.built → n.Stands ledger.record f
  fresh : ∀ i ∈ ledger.record.map Prod.fst, i < ledger.studio.made
  distinct : (ledger.record.map Prod.fst).Nodup

/-- Whether all that was noted in a ledger is noted in another. -/
structure Kept (ledger ledger' : Ledger) : Prop where
  built : ∀ e ∈ ledger.built, e ∈ ledger'.built
  record : ∀ i x, ledger.record.lookup i = some x → ledger'.record.lookup i = some x

theorem sound_opening (studio : Studio) : (opening studio).Sound :=
  ⟨by simp [opening], by simp [opening], by simp [opening]⟩

theorem Has.stands (h : ledger.Sound) (hv : ledger.Has v f) : v.Stands ledger.record f := by
  cases hv with
  | number x => exact .number x
  | node hn => exact .node (h.stands _ _ hn)

/-- Taking a node that stands for a formula keeps a ledger sound. -/
theorem Sound.take (h : ledger.Sound) (hn : n.Stands ledger.record f) :
    Sound { ledger with built := (n, f) :: ledger.built } := by
  refine ⟨fun m g hmem => ?_, h.fresh, h.distinct⟩
  rcases List.mem_cons.1 hmem with heq | hmem
  · obtain ⟨rfl, rfl⟩ := Prod.mk.inj heq
    exact hn
  · exact h.stands m g hmem

/-- Making a node that stands for a formula keeps a ledger sound. -/
theorem Sound.build (h : ledger.Sound) (hmakes : Making.Makes ledger.record action f) :
    (ledger.build action f).Sound := by
  obtain ⟨hn, hmade⟩ := hmakes ledger.studio
  have htake := h.take hn
  exact ⟨htake.stands, fun i hi => Nat.lt_of_lt_of_le (h.fresh i hi) hmade, h.distinct⟩

/-- The identity of a new leaf has no sample yet. -/
theorem Sound.lookup_made (h : ledger.Sound) : ledger.record.lookup ledger.studio.made = none := by
  rw [List.lookup_eq_none_iff]
  intro e he
  have hlt := h.fresh e.1 (List.mem_map_of_mem he)
  simpa using Nat.ne_of_gt hlt

theorem kept_buildLeaf (h : ledger.Sound) (d : Distribution) :
    Kept ledger (ledger.buildLeaf d) := by
  refine ⟨fun e he => List.mem_cons_of_mem _ he, fun i x hi => ?_⟩
  have hne : i ≠ ledger.studio.made := by
    rintro rfl
    simp [h.lookup_made] at hi
  have hrecord : (ledger.buildLeaf d).record =
      (ledger.studio.made, (d.sample ledger.studio.source).1) :: ledger.record := rfl
  rw [hrecord, List.lookup_cons, beq_false_of_ne hne]
  exact hi

theorem Sound.buildLeaf (h : ledger.Sound) (d : Distribution) : (ledger.buildLeaf d).Sound := by
  have hkept := kept_buildLeaf h d
  refine ⟨fun n f hmem => ?_, fun i hi => ?_, ?_⟩
  · rcases List.mem_cons.1 hmem with heq | hmem
    · obtain ⟨rfl, rfl⟩ := Prod.mk.inj heq
      exact .leaf d List.lookup_cons_self
    · exact (h.stands n f hmem).mono hkept.record
  · rcases List.mem_cons.1 hi with rfl | hi
    · exact Nat.lt_succ_self _
    · exact Nat.lt_succ_of_lt (h.fresh i hi)
  · exact List.nodup_cons.2 ⟨fun hmem => Nat.lt_irrefl _ (h.fresh _ hmem), h.distinct⟩

/-- **Working out a node draws nothing**: the cells of its leaves are full. -/
theorem workOut_eq (hn : n.Stands ledger.record f) :
    workOut n ledger = (n.resolve, ledger) := by
  induction hn with
  | scalar i x => rfl
  | leaf d hi =>
    rw [workOut, cell, hi]
    rfl
  | @combinator l r f g i op hl hr ihl ihr =>
    rw [workOut, ihl, Node.resolve]
    cases l.resolve with
    | error e => rfl
    | ok x =>
      dsimp only
      rw [ihr]
      cases r.resolve with
      | error e => rfl
      | ok y => rfl

/-- **One call keeps a ledger sound.** -/
theorem Sound.call (h : ledger.Sound) (hcall : Call ledger ledger') : ledger'.Sound := by
  cases hcall with
  | seed seed => exact ⟨h.stands, h.fresh, h.distinct⟩
  | sample d => exact ⟨h.stands, h.fresh, h.distinct⟩
  | scalar x => exact h.build (Making.makes_scalar _ x)
  | leaf d => exact h.buildLeaf d
  | lift hv => exact h.build (Making.makes_lift (hv.stands h))
  | combinator op hl hr =>
    exact h.build (Making.makes_combinator op (h.stands _ _ hl) (h.stands _ _ hr))
  | method m hn hv => exact h.build (Making.makes_call m (h.stands _ _ hn) (hv.stands h))
  | operator op how hl hr =>
    exact h.build (Making.makes_onValues op how (hl.stands h) (hr.stands h))
  | left hn =>
    cases h.stands _ _ hn with
    | combinator i op hl hr => exact h.take hl
  | right hn =>
    cases h.stands _ _ hn with
    | combinator i op hl hr => exact h.take hr
  | resolve hn =>
    rw [workOut_eq (h.stands _ _ hn)]
    exact h

/-- One call keeps what was noted. -/
theorem Call.kept (h : ledger.Sound) (hcall : Call ledger ledger') : Kept ledger ledger' := by
  cases hcall with
  | leaf d => exact kept_buildLeaf h d
  | seed | sample => exact ⟨fun _ he => he, fun _ _ hi => hi⟩
  | resolve hn =>
    rw [workOut_eq (h.stands _ _ hn)]
    exact ⟨fun _ he => he, fun _ _ hi => hi⟩
  | _ => exact ⟨fun _ he => List.mem_cons_of_mem _ he, fun _ _ hi => hi⟩

/-- **A run keeps a ledger sound**, and keeps what was noted. -/
theorem Sound.run (h : ledger.Sound) (hrun : Run ledger ledger') :
    ledger'.Sound ∧ Kept ledger ledger' := by
  induction hrun with
  | refl => exact ⟨h, fun _ he => he, fun _ _ hi => hi⟩
  | tail _ hcall ih =>
    obtain ⟨hsound, hkept⟩ := ih
    have hnext := hcall.kept hsound
    exact ⟨hsound.call hcall, fun e he => hnext.built e (hkept.built e he),
      fun i x hi => hnext.record i x (hkept.record i x hi)⟩

/-! ## What a node says at every point of a run -/

/-- Whether a node says what its formula says by the samples on record, and can be worked out by the
cells with the same result and without a change. -/
structure Tells (ledger : Ledger) (n : Node) (f : Formula) : Prop where
  resolve : f.evaluate ledger.record = some n.resolve
  cached : f.held ledger.record = n.cached
  workOut : workOut n ledger = (n.resolve, ledger)

/-- Whether all that was built up to one point of a run says the same there and at a later point, by
samples of which each leaf has one. -/
structure Lasting (ledger ledger' : Ledger) : Prop where
  once : (ledger'.record.map Prod.fst).Nodup
  record : ∀ i x, ledger.record.lookup i = some x → ledger'.record.lookup i = some x
  node : ∀ n f, (n, f) ∈ ledger.built → ledger.Tells n f ∧ ledger'.Tells n f
  value : ∀ v f, ledger.Has v f → f.evaluate ledger.record = some v.resolve ∧
    f.evaluate ledger'.record = some v.resolve

theorem Sound.tells (h : ledger.Sound) (hn : (n, f) ∈ ledger.built) : ledger.Tells n f :=
  have hstands := h.stands n f hn
  ⟨hstands.evaluate, hstands.held, workOut_eq hstands⟩

theorem Has.kept (h : Kept ledger ledger') (hv : ledger.Has v f) : ledger'.Has v f := by
  cases hv with
  | number x => exact .number x
  | node hn => exact .node (h.built _ hn)

/-- **What was built says the same at every later point.** -/
theorem Sound.lasting (h : ledger.Sound) (hrun : Run ledger ledger') : Lasting ledger ledger' := by
  obtain ⟨h', hkept⟩ := h.run hrun
  exact ⟨h'.distinct, hkept.record, fun n f hn => ⟨h.tells hn, h'.tells (hkept.built _ hn)⟩,
    fun v f hv => ⟨(hv.stands h).evaluate, ((hv.kept hkept).stands h').evaluate⟩⟩

end Ledger

end Atelier
