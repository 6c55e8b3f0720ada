import Atelier.Proofs.Drawing.Document
import Atelier.Proofs.Expression.Ledger

/-!
# What is asked of the random source

Only three calls of the library have to do with the random source: choosing a seed, making a leaf
and sampling a distribution (`Demand`). The source after any number of calls is the source after
these, and the others might as well not have been made (`Billed.source_eq`).

This holds also if looking at a value could draw. So looking is taken here as it is in runs of calls
(`Ledger.workOut`): the sample of a leaf is in a cell that is filled on first use.
-/

namespace Atelier

/-! ## Demands -/

/-- What can be asked of a random source. -/
inductive Demand where
  | seed (seed : UInt64)
  | leaf (d : Distribution)
  | sample (d : Distribution)
deriving DecidableEq

namespace Demand

def isLeaf : Demand → Bool
  | leaf _ => true
  | _ => false

def isSample : Demand → Bool
  | sample _ => true
  | _ => false

/-- The source after a demand. -/
def serve (source : Random.Source) : Demand → Random.Source
  | seed n => source.reseed n
  | leaf d | sample d => (d.sample source).2

end Demand

/-- The source after some demands. -/
def Random.Source.after (source : Random.Source) (bill : List Demand) : Random.Source :=
  bill.foldl Demand.serve source

namespace Random.Source

variable (source : Source) (bill more : List Demand)

theorem after_append : source.after (bill ++ more) = (source.after bill).after more :=
  List.foldl_append

/-- **Draws are leaves and samples**, whatever seeds are chosen in between. -/
theorem draws_after :
    (source.after bill).draws =
      source.draws + bill.countP Demand.isLeaf + bill.countP Demand.isSample := by
  induction bill generalizing source with
  | nil => rfl
  | cons demand rest ih =>
    have hserve : (source.after (demand :: rest)).draws =
        ((demand.serve source).after rest).draws := rfl
    rw [hserve, ih, List.countP_cons, List.countP_cons]
    cases demand with
    | seed n => simp [Demand.serve, Demand.isLeaf, Demand.isSample]
    | leaf d =>
      simp [Demand.serve, Demand.isLeaf, Demand.isSample]
      omega
    | sample d =>
      simp [Demand.serve, Demand.isLeaf, Demand.isSample]
      omega

/-- A seed starts its own stream wherever the source stood; the count goes on. -/
theorem after_seed (n : UInt64) :
    source.after (bill ++ [.seed n]) = ⟨.ofSeed n, (source.after bill).draws⟩ := by
  rw [after_append]
  rfl

end Random.Source

/-! ## What is asked for while something is made -/

namespace Making

variable {α β : Type} {action : Making α} {k : α → Making β} {bill more : List Demand}

/-- Whether an action asks for just this of the source, wherever it is done. -/
def Asks (bill : List Demand) (action : Making α) : Prop :=
  ∀ studio, (action studio).2.source = studio.source.after bill

theorem Asks.bind (h : Asks bill action) (hk : ∀ a, Asks more (k a)) :
    Asks (bill ++ more) (action >>= k) := by
  intro studio
  rw [Random.Source.after_append, ← h studio]
  exact hk _ _

theorem asks_pure (a : α) : Asks [] (pure a : Making α) := fun _ => rfl

theorem Asks.map (g : α → β) (h : Asks bill action) :
    Asks bill (action >>= fun a => pure (g a)) :=
  h

theorem asks_scalar (x : Float) : Asks [] (scalar x) := fun _ => rfl

theorem asks_leaf (d : Distribution) : Asks [.leaf d] (leaf d) := fun _ => rfl

theorem asks_sample (d : Distribution) : Asks [.sample d] (sample d) := fun _ => rfl

theorem asks_lift (v : Value) : Asks [] v.lift := by
  cases v with
  | number x => exact asks_scalar x
  | node n => exact asks_pure n

theorem asks_combinator (op : Operator) (l r : Node) : Asks [] (combinator op l r) := fun _ => rfl

theorem asks_onValues (op : Operator) (how : Variant) (v w : Value) :
    Asks [] (op.onValues how v w) := by
  rw [onValues_eq]
  exact (asks_lift v).bind fun _ => (asks_lift w).bind fun _ => asks_combinator _ _ _

theorem asks_call (m : Method) (n : Node) (v : Value) : Asks [] (m.call n v) := by
  rw [call_eq m n v .lent]
  exact asks_onValues _ _ _ _

theorem asks_samples (d : Distribution) (times : Nat) :
    Asks (List.replicate times (.sample d)) (samples d times) := by
  induction times with
  | zero => exact asks_pure []
  | succ times ih => exact (asks_sample d).bind fun x => ih.map (x :: ·)

end Making

/-! ## Runs of library calls and what they ask for -/

namespace Ledger

variable {ledger ledger' ledger'' : Ledger} {values : List Value} {demand : Option Demand}
  {bill : List Demand}

/-- Looks at some values in order, by the cells of their leaves, and ends at the first that
fails. -/
def lookAt : List Value → Ledger → Except DivisionByZero Unit × Ledger
  | [], ledger => (.ok (), ledger)
  | .number _ :: rest, ledger => lookAt rest ledger
  | .node n :: rest, ledger =>
    match workOut n ledger with
    | (.error cause, ledger) => (.error cause, ledger)
    | (.ok _, ledger) => lookAt rest ledger

/-- **Looking changes nothing**, however often a node is come across and whether or not the look
ends early. -/
theorem lookAt_eq (h : ledger.Sound) (hvalues : ∀ v ∈ values, ∃ f, ledger.Has v f) :
    lookAt values ledger = (workThrough values, ledger) := by
  induction values with
  | nil => rfl
  | cons v rest ih =>
    rw [List.forall_mem_cons] at hvalues
    obtain ⟨⟨f, hv⟩, hrest⟩ := hvalues
    cases hv with
    | number x => exact ih hrest
    | @node n f hn =>
      rw [lookAt, workOut_eq (h.stands n f hn), workThrough, Value.resolve]
      cases n.resolve with
      | error cause => rfl
      | ok x => exact ih hrest

/-- One call of the library that is neither a seed nor a sample nor a leaf. Whatever is worked out
or written, be it a value, a colour or a tree of shapes, is a look at its values; one that is
checked before it is written is looked at twice. -/
inductive Quiet (ledger : Ledger) : Ledger → Prop
  | scalar (x : Float) : Quiet ledger (ledger.build (Making.scalar x) (.number x))
  | lift {v : Value} {f : Formula} (hv : ledger.Has v f) : Quiet ledger (ledger.build v.lift f)
  | combinator {l r : Node} {f g : Formula} (op : Operator) (hl : (l, f) ∈ ledger.built)
      (hr : (r, g) ∈ ledger.built) :
      Quiet ledger (ledger.build (Making.combinator op l r) (.apply op f g))
  | method {n : Node} {v : Value} {f g : Formula} (m : Method) (hn : (n, f) ∈ ledger.built)
      (hv : ledger.Has v g) : Quiet ledger (ledger.build (m.call n v) (m.formula f g))
  | operator {v w : Value} {f g : Formula} (op : Operator) (how : Variant)
      (hv : ledger.Has v f) (hw : ledger.Has w g) :
      Quiet ledger (ledger.build (op.onValues how v w) (.apply op f g))
  | left {i : Nat} {op op' : Operator} {l r : Node} {f g : Formula}
      (hn : (.combinator i op l r, .apply op' f g) ∈ ledger.built) :
      Quiet ledger { ledger with built := (l, f) :: ledger.built }
  | right {i : Nat} {op op' : Operator} {l r : Node} {f g : Formula}
      (hn : (.combinator i op l r, .apply op' f g) ∈ ledger.built) :
      Quiet ledger { ledger with built := (r, g) :: ledger.built }
  | look {values : List Value} (hvalues : ∀ v ∈ values, ∃ f, ledger.Has v f) :
      Quiet ledger (lookAt values ledger).2

/-- One call of the library, with what it asks of the source. -/
inductive Billed (ledger : Ledger) : Option Demand → Ledger → Prop
  | seed (n : UInt64) :
      Billed ledger (some (.seed n))
        { ledger with studio.source := ledger.studio.source.reseed n }
  | sample (d : Distribution) :
      Billed ledger (some (.sample d)) { ledger with studio := (Making.sample d ledger.studio).2 }
  | leaf (d : Distribution) : Billed ledger (some (.leaf d)) (ledger.buildLeaf d)
  | quiet {ledger' : Ledger} (h : Quiet ledger ledger') : Billed ledger none ledger'

/-- Any number of calls, with all that they ask of the source in order. -/
inductive BilledRun (ledger : Ledger) : List Demand → Ledger → Prop
  | refl : BilledRun ledger [] ledger
  | tail {bill : List Demand} {demand : Option Demand} {ledger' ledger'' : Ledger}
      (hrun : BilledRun ledger bill ledger') (hcall : Billed ledger' demand ledger'') :
      BilledRun ledger (bill ++ demand.toList) ledger''

/-! ### They are the runs of calls -/

theorem Quiet.run (h : ledger.Sound) (hquiet : Quiet ledger ledger') : Run ledger ledger' := by
  cases hquiet with
  | scalar x => exact .single (.scalar ledger x)
  | lift hv => exact .single (.lift hv)
  | combinator op hl hr => exact .single (.combinator op hl hr)
  | method m hn hv => exact .single (.method m hn hv)
  | operator op how hv hw => exact .single (.operator op how hv hw)
  | left hn => exact .single (.left hn)
  | right hn => exact .single (.right hn)
  | look hvalues =>
    rw [lookAt_eq h hvalues]

theorem Billed.run (h : ledger.Sound) (hcall : Billed ledger demand ledger') :
    Run ledger ledger' := by
  cases hcall with
  | seed n => exact .single (.seed ledger n)
  | sample d => exact .single (.sample ledger d)
  | leaf d => exact .single (.leaf ledger d)
  | quiet hquiet => exact hquiet.run h

theorem BilledRun.run (h : ledger.Sound) (hrun : BilledRun ledger bill ledger') :
    Run ledger ledger' := by
  induction hrun with
  | refl => exact .refl
  | tail _ hcall ih => exact ih.trans (hcall.run (h.run ih).1)

/-- Each call asks for something or is quiet. -/
theorem Call.billed (hcall : Call ledger ledger') : ∃ demand, Billed ledger demand ledger' := by
  cases hcall with
  | seed n => exact ⟨_, .seed n⟩
  | sample d => exact ⟨_, .sample d⟩
  | leaf d => exact ⟨_, .leaf d⟩
  | scalar x => exact ⟨_, .quiet (.scalar x)⟩
  | lift hv => exact ⟨_, .quiet (.lift hv)⟩
  | combinator op hl hr => exact ⟨_, .quiet (.combinator op hl hr)⟩
  | method m hn hv => exact ⟨_, .quiet (.method m hn hv)⟩
  | operator op how hl hr => exact ⟨_, .quiet (.operator op how hl hr)⟩
  | left hn => exact ⟨_, .quiet (.left hn)⟩
  | right hn => exact ⟨_, .quiet (.right hn)⟩
  | @resolve n f hn =>
    have hlook : (lookAt [.node n] ledger).2 = (workOut n ledger).2 := by
      rw [lookAt]
      cases workOut n ledger with
      | mk result ledger =>
        cases result with
        | error cause => rfl
        | ok x => rfl
    rw [← hlook]
    exact ⟨_, .quiet (.look (by simpa using ⟨f, Has.node hn⟩))⟩

/-- Every run of calls has a bill. -/
theorem Run.billed (hrun : Run ledger ledger') : ∃ bill, BilledRun ledger bill ledger' := by
  induction hrun with
  | refl => exact ⟨[], .refl⟩
  | tail _ hcall ih =>
    obtain ⟨bill, hbilled⟩ := ih
    obtain ⟨demand, hcall⟩ := hcall.billed
    exact ⟨_, .tail hbilled hcall⟩

/-! ### The source after a run -/

/-- **A quiet call leaves the source as it is.** -/
theorem Quiet.source_eq (h : ledger.Sound) (hquiet : Quiet ledger ledger') :
    ledger'.studio.source = ledger.studio.source := by
  cases hquiet with
  | scalar x => exact Making.asks_scalar x ledger.studio
  | @lift v f hv => exact Making.asks_lift v ledger.studio
  | @combinator l r f g op hl hr => exact Making.asks_combinator op l r ledger.studio
  | @method n v f g m hn hv => exact Making.asks_call m n v ledger.studio
  | @operator v w f g op how hv hw => exact Making.asks_onValues op how v w ledger.studio
  | left hn => rfl
  | right hn => rfl
  | look hvalues => rw [lookAt_eq h hvalues]

theorem Billed.source_eq (h : ledger.Sound) (hcall : Billed ledger demand ledger') :
    ledger'.studio.source = ledger.studio.source.after demand.toList := by
  cases hcall with
  | seed n => rfl
  | sample d => exact Making.asks_sample d ledger.studio
  | leaf d => exact Making.asks_leaf d ledger.studio
  | quiet hquiet => exact hquiet.source_eq h

/-- **The source after a run is the source after its bill.** -/
theorem BilledRun.source_eq (h : ledger.Sound) (hrun : BilledRun ledger bill ledger') :
    ledger'.studio.source = ledger.studio.source.after bill := by
  induction hrun with
  | refl => rfl
  | tail hrun hcall ih =>
    have hsound := (h.run (hrun.run h)).1
    rw [hcall.source_eq hsound, ih, Random.Source.after_append]

end Ledger

end Atelier
