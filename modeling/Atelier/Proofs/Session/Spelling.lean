import Atelier.Proofs.Session.Draws
import Atelier.Proofs.Session.Identity

/-!
# Methods and symbols

Four of the methods can be written as symbols: `n.add(v)` is `n + v`, and so on. A program in
which any of its calls are written the other way does the same: all answers are the same, and so is
the session afterwards, with its draws, its nodes and their identities (`Step.runAll_inSymbols`).
That is since both spellings do one thing, which is an operator on the two sides of the call
(`Making.call_eq`), and the sides are worked out from left to right in both.

What this one thing does with its operands is said by `Ledger.Joins`, and here for a call in a
description (`Expr.Evaluated`): it is done just when both sides can be worked out, and then the
result joins what they gave.

A node is a handle, and a copy of a handle is a handle on the same node. So all variants of an
operator do one thing (`Making.onValues_eq`), and a description in symbols lends both operands
whatever the variant was.
-/

namespace Atelier

open Atelier.Action Acting Ledger Node

/-! ## Descriptions in symbols -/

/-- The symbol for which a method can be written. One that takes its target to the right has none,
since what is on the left would then be made first. -/
def Method.symbol? : Method → Option Operator
  | add => some .add
  | subtract => some .subtract
  | multiply => some .multiply
  | divide => some .divide
  | subFrom | divFrom => none

/-- The same description with symbols for all methods that have one, and with operands that are lent
to every symbol. A method that is called again and again by one description stays a method. -/
def Expr.inSymbols : Expr → Expr
  | method m target argument =>
    match m.symbol? with
    | some op => operator op target.inSymbols argument.inSymbols
    | none => method m target.inSymbols argument.inSymbols
  | operator op left right _ => operator op left.inSymbols right.inSymbols
  | chain m start argument times => chain m start.inSymbols argument.inSymbols times
  | double m start times => double m start.inSymbols times
  | number x => number x
  | named name => named name
  | scalar x => scalar x
  | leaf d => leaf d

def ColorExpr.inSymbols : ColorExpr → ColorExpr
  | named name => named name
  | made c => made (Id.run (c.mapM Expr.inSymbols))

namespace ShapeExpr

mutual

def inSymbols : ShapeExpr → ShapeExpr
  | named name => named name
  | made form items qualifiers =>
    made (Id.run (form.mapM Expr.inSymbols ColorExpr.inSymbols)) (inSymbolsItems items) qualifiers

def inSymbolsItems : List ShapeExpr → List ShapeExpr
  | [] => []
  | item :: rest => item.inSymbols :: inSymbolsItems rest

end

end ShapeExpr

/-- The same step with symbols in all that it describes. -/
def Step.inSymbols : Step → Step
  | define name e => define name e.inSymbols
  | child name e side => child name e.inSymbols side
  | describe e => describe e.inSymbols
  | lift e => lift e.inSymbols
  | resolve e => resolve e.inSymbols
  | resolveNode e => resolveNode e.inSymbols
  | display e => display e.inSymbols
  | same a b => same a.inSymbols b.inSymbols
  | valueJson e => valueJson e.inSymbols
  | combine op l r => combine op l.inSymbols r.inSymbols
  | defineColor name c => defineColor name c.inSymbols
  | css c => css c.inSymbols
  | channels c => channels c.inSymbols
  | colorJson c => colorJson c.inSymbols
  | defineShape name s => defineShape name s.inSymbols
  | addItem name item => addItem name item.inSymbols
  | setField name field e => setField name field e.inSymbols
  | step => step

/-! ## Running in symbols -/

/-- All variants of an operator are one. -/
theorem Making.onValues_eq_lent (op : Operator) (how : Variant) (v w : Value) :
    op.onValues how v w = op.onValues .lent v w := by
  rw [onValues_eq, onValues_eq]

theorem Making.lift_call_eq {m : Method} {op : Operator} (h : m.symbol? = some op) (how : Variant)
    (v w : Value) : (do m.call (← v.lift) w) = op.onValues how v w := by
  rw [onValues_eq]
  cases m <;> cases h <;> rfl

theorem Expr.eval_inSymbols (e : Expr) : e.inSymbols.eval = e.eval := by
  induction e with
  | number x | named name | scalar x | leaf d => rfl
  | method m target argument ihTarget ihArgument =>
    rw [inSymbols]
    cases hm : m.symbol? with
    | none =>
      dsimp only
      rw [eval, eval, ihTarget, ihArgument]
    | some op =>
      dsimp only
      rw [eval, eval, ihTarget, ihArgument]
      simp only [Making.lift_call_eq hm .lent]
  | operator op left right how ihLeft ihRight =>
    rw [inSymbols, eval, eval, ihLeft, ihRight]
    simp only [Making.onValues_eq_lent op how]
  | chain m start argument times ihStart ihArgument =>
    rw [inSymbols, eval, eval, ihStart, ihArgument]
  | double m start times ihStart => rw [inSymbols, eval, eval, ihStart]

theorem Expr.evalNode_inSymbols (e : Expr) : e.inSymbols.evalNode = e.evalNode := by
  rw [evalNode, evalNode, eval_inSymbols]

/-- Actions on the channels of a colour whose channels were replaced before. -/
theorem Color.mapM_run {α β γ : Type} {m : Type → Type} [Monad m] (f : α → Id β) (g : β → m γ)
    (c : Color α) : (Id.run (c.mapM f)).mapM g = c.mapM fun a => g (f a) := by
  cases c <;> rfl

namespace Form

variable {α β γ κ κ' κ'' : Type} {m : Type → Type} [Monad m]

theorem mapColor_run (f : κ → Id κ') (g : κ' → m κ'') (c : Option κ) :
    mapColor g (Id.run (mapColor f c)) = mapColor (fun a => g (f a)) c := by
  cases c <;> rfl

theorem mapM_run (f : α → Id β) (g : β → m γ) (f' : κ → Id κ') (g' : κ' → m κ'')
    (form : Form α κ) :
    (Id.run (form.mapM f f')).mapM g g' = form.mapM (fun a => g (f a)) fun c => g' (f' c) := by
  cases form
  all_goals
    simp only [mapM, ← mapColor_run f' g']
    rfl

end Form

theorem ColorExpr.eval_inSymbols (c : ColorExpr) : c.inSymbols.eval = c.eval := by
  cases c with
  | named name => rfl
  | made c =>
    rw [inSymbols, eval, eval, Color.mapM_run]
    simp only [Expr.eval_inSymbols]

namespace ShapeExpr

mutual

theorem eval_inSymbols : (s : ShapeExpr) → s.inSymbols.eval = s.eval
  | named name => by rw [inSymbols]
  | made form items qualifiers => by
    rw [inSymbols, eval, eval, Form.mapM_run, evalItems_inSymbols items]
    simp only [Expr.eval_inSymbols, ColorExpr.eval_inSymbols]

theorem evalItems_inSymbols :
    (items : List ShapeExpr) → evalItems (inSymbolsItems items) = evalItems items
  | [] => by rw [inSymbolsItems]
  | item :: rest => by
    rw [inSymbolsItems, evalItems, evalItems, eval_inSymbols item, evalItems_inSymbols rest]

end

end ShapeExpr

namespace Step

theorem run_inSymbols (step : Step) : step.inSymbols.run = step.run := by
  cases step with
  | draws | seed | apply | sample | leaf | qualify | info | resolveAll | json | toolJson
  | toolSerialize => rfl
  | define | describe | resolve | valueJson | setField =>
    rw [inSymbols, run, run, Expr.eval_inSymbols]
  | child | lift | resolveNode | display => rw [inSymbols, run, run, Expr.evalNode_inSymbols]
  | same | combine =>
    rw [inSymbols, run, run, Expr.evalNode_inSymbols, Expr.evalNode_inSymbols]
  | defineColor | css | channels | colorJson =>
    rw [inSymbols, run, run, ColorExpr.eval_inSymbols]
  | defineShape | addItem => rw [inSymbols, run, run, ShapeExpr.eval_inSymbols]

theorem runAll_inSymbols (steps : List Step) (s : Session) :
    runAll (steps.map inSymbols) s = runAll steps s := by
  induction steps generalizing s with
  | nil => rfl
  | cons step rest ih =>
    simp only [List.map_cons, runAll, run_inSymbols, ih]

end Step

/-! ## Calls in descriptions -/

namespace Expr

variable {ledger : Ledger} {s s' : Session} {op : Operator} {a b e : Expr} {v : Value}

/-- Whether a description is a call for an operator on two others, in either spelling and in any
variant. -/
inductive Calls (op : Operator) (a b : Expr) : Expr → Prop
  | method {m : Method} (h : m.symbol? = some op) : Calls op a b (.method m a b)
  | operator (how : Variant) : Calls op a b (.operator op a b how)

/-- Both spellings of a call are one in symbols. -/
theorem Calls.inSymbols_eq (h : Calls op a b e) :
    e.inSymbols = .operator op a.inSymbols b.inSymbols := by
  cases h with
  | method hm => simp only [inSymbols, hm]
  | operator how => rfl

theorem Calls.eval_eq (h : Calls op a b e) : e.eval = (Expr.operator op a b).eval := by
  rw [← e.eval_inSymbols, h.inSymbols_eq, eval, eval, a.eval_inSymbols, b.eval_inSymbols]

/-- What a call for an operator does in a session: it works out the left side, then the right side
in the session after that, and the node that it makes joins the two values. The ledger before goes
on to one that knows both values. -/
inductive Evaluated (ledger : Ledger) (s : Session) (op : Operator) (a b : Expr) :
    Value → Session → Prop
  | joins {va vb : Value} {s₁ s₂ : Session} {ledger₂ : Ledger} {n : Node} {studio : Studio}
      (ha : a.eval.on s = (.ok va, s₁)) (hb : b.eval.on s₁ = (.ok vb, s₂))
      (hrun : Run ledger ledger₂) (hgoes : ledger₂.GoesWith s₂) (hjoins : ledger₂.Joins op va vb n)
      (hmade : ∀ how, op.onValues how va vb s₂.studio = (n, studio)) :
      Evaluated ledger s op a b (.node n) { s₂ with studio }

theorem on_eval_operator {va vb : Value} {s₁ s₂ : Session} (ha : a.eval.on s = (.ok va, s₁))
    (hb : b.eval.on s₁ = (.ok vb, s₂)) :
    (operator op a b).eval.on s = (.ok (.node (op.onValues .lent va vb s₂.studio).1),
      { s₂ with studio := (op.onValues .lent va vb s₂.studio).2 }) := by
  rw [eval, on_bind_of_ok ha, on_bind_of_ok hb]
  rfl

/-- **A call joins its sides**, whenever both can be worked out. -/
theorem Calls.evaluated_iff (h : Calls op a b e) (hsound : ledger.Sound)
    (hid : ledger.studio.Identifies ledger.nodes) (hgoes : ledger.GoesWith s) :
    e.eval.on s = (.ok v, s') ↔ Evaluated ledger s op a b v s' := by
  rw [h.eval_eq]
  constructor
  · intro hrun
    rw [eval] at hrun
    obtain ⟨va, s₁, ha, hrest⟩ := on_bind_eq_ok_iff.1 hrun
    obtain ⟨vb, s₂, hb, -⟩ := on_bind_eq_ok_iff.1 hrest
    rw [← eval, on_eval_operator ha hb] at hrun
    obtain ⟨hv, rfl⟩ := Prod.mk.inj hrun
    obtain rfl := Except.ok.inj hv
    obtain ⟨ledger₁, hrun₁, hgoes₁, hva⟩ :=
      a.follows_eval ledger s hsound hgoes (knows_nil ledger)
    rw [ha] at hgoes₁ hva
    have hsound₁ := (hsound.run hrun₁).1
    obtain ⟨ledger₂, hrun₂, hgoes₂, hvb⟩ :=
      b.follows_eval ledger₁ s₁ hsound₁ hgoes₁ (knows_nil ledger₁)
    rw [hb] at hgoes₂ hvb
    have hkept := (hsound₁.run hrun₂).2
    have hid₂ := Run.identifies hsound hid (hrun₁.trans hrun₂)
    have hjoins := joins_onValues hid₂ op .lent ((hva va rfl).kept hkept).subset_nodes
      (hvb vb rfl).subset_nodes
    rw [hgoes₂.studio] at hjoins
    exact .joins ha hb (hrun₁.trans hrun₂) hgoes₂ hjoins fun how =>
      congrFun (Making.onValues_eq_lent op how va vb) s₂.studio
  · intro hevaluated
    cases hevaluated with
    | joins ha hb hrun hgoes hjoins hmade => rw [on_eval_operator ha hb, hmade]

end Expr

/-! ## Both spellings -/

/-- What holds of operands at every point of a run of library calls. -/
structure Ledger.KeepsOperands (studio : Studio) (ledger : Ledger) : Prop where
  /-- Identities tell nodes apart. -/
  identity : ∀ n ∈ partsOf ledger.nodes, ∀ m ∈ partsOf ledger.nodes, (n.same m = true ↔ n = m)
  /-- An operator on two values joins them, in each of its variants. -/
  joins : ∀ op how v w f g, ledger.Has v f → ledger.Has w g →
    ledger.Joins op v w (op.onValues how v w ledger.studio).1
  /-- So does a call in a description, in either spelling and in any variant. -/
  evaluated : ∀ s op a b e v s', ledger.GoesWith s → Expr.Calls op a b e →
    (e.eval.on s = (.ok v, s') ↔ Expr.Evaluated ledger s op a b v s')
  /-- Each operator that there is, also below other nodes, joined two values when it was built. -/
  joined : ∀ i op l r, .combinator i op l r ∈ partsOf ledger.nodes →
    ∃ before, Run (opening studio) before ∧ Run before ledger ∧
      before.Joined op (.combinator i op l r)

theorem Ledger.keepsOperands {studio : Studio} {ledger : Ledger}
    (hrun : Run (opening studio) ledger) : ledger.KeepsOperands studio := by
  have hsound := ((sound_opening studio).run hrun).1
  have hid := Run.identifies (sound_opening studio) (identifies_opening studio) hrun
  exact ⟨hid.same_iff_eq, fun op how v w f g hv hw => joins_onValues hid op how hv.subset_nodes
      hw.subset_nodes,
    fun s op a b e v s' hgoes hcalls => hcalls.evaluated_iff hsound hid hgoes,
    fun i op l r hmem => Run.joined hrun hmem⟩

/-- **Methods and symbols build the same graphs.** A method is an operator on its two sides,
whichever variant of it is taken, and those that take their argument to the left are no exception.
Two programs that are one in symbols give the same answers and lead to the same session. Whatever
library calls are made, operators have their operands on the sides where they were given: a node as
that very node, and a number as a new scalar that is shared with nothing. And all that a session
does is done by such calls. -/
theorem methods_and_symbols_agree :
    (∀ (m : Method) (n : Node) (v : Value) (how : Variant),
      m.call n v = m.operator.onValues how (m.sides n v).1 (m.sides n v).2) ∧
    (∀ (steps steps' : List Step) (s : Session),
      steps.map Step.inSymbols = steps'.map Step.inSymbols →
        Step.runAll steps s = Step.runAll steps' s) ∧
    (∀ studio ledger, Run (opening studio) ledger → ledger.KeepsOperands studio) ∧
    ∀ (seed : UInt64) (steps : List Step), ∃ ledger,
      Run (opening (Session.ofSeed seed).studio) ledger ∧
        ledger.GoesWith (Step.runAll steps (Session.ofSeed seed)).2 := by
  refine ⟨Making.call_eq, fun steps steps' s h => ?_, fun _ _ => keepsOperands,
    fun seed steps => ?_⟩
  · rw [← Step.runAll_inSymbols steps, h, Step.runAll_inSymbols steps']
  · exact Step.exists_run_runAll steps (sound_opening _) ⟨rfl, knows_nil _⟩

/-- A difference in both spellings, with a sum inside whose left side is handed over for good, and
five less a scalar node that was built before. -/
theorem methods_and_symbols_agree_difference :
    let s := Session.ofSeed 7
    let leaf : Step := .define "a" (.leaf (.normalInt 4.5 2))
    let sum : Expr := .method .add (.named "a") (.number 1)
    let sum' : Expr := .operator .add (.named "a") (.number 1) ⟨.owned, .borrowed⟩
    let ledger := (opening s.studio).build (Making.scalar 2) (.number 2)
    let two := (Making.scalar 2 s.studio).1
    let owned : Variant := ⟨.owned, .owned⟩
    Step.runAll [leaf, .define "d" (.method .subtract (.named "a") sum)] s =
        Step.runAll [leaf, .define "d" (.operator .subtract (.named "a") sum')] s ∧
      Method.subFrom.call two (.number 5) =
        Operator.subtract.onValues owned (.number 5) (.node two) ∧
      ledger.Joins .subtract (.number 5) (.node two)
        (Operator.subtract.onValues owned (.number 5) (.node two) ledger.studio).1 := by
  intro s leaf sum sum' ledger two owned
  have hkeeps := methods_and_symbols_agree.2.2.1 s.studio ledger (.single (.scalar _ 2))
  refine ⟨methods_and_symbols_agree.2.1 _ _ s rfl, methods_and_symbols_agree.1 .subFrom two _ owned,
    ?_⟩
  exact hkeeps.joins _ _ _ _ _ _ (.number 5) (.node List.mem_cons_self)

end Atelier
