import Atelier.Proofs.Drawing.Traversal
import Atelier.Proofs.Expression.Demand
import Atelier.Proofs.Session.Calls
import Mathlib.Data.List.TakeWhile

/-!
# Every draw is accounted for

What a session asks of the random source can be told from its steps: the leaves that a step
describes, the samples that it takes, and the seed that it sets. A step that only works out, writes
or changes something asks for nothing of its own. A step that is a fault has asked for what it
describes before the name that is unknown (`Session.asked`). The source after any steps is the
source after all that they asked for, in order (`Step.source_runAll`).
-/

namespace Atelier

open Atelier.Action

/-! ## What a description needs -/

/-- What a description needs to be evaluated: something of the random source, or something by its
name. -/
inductive Need where
  | demand (demand : Demand)
  | value (name : String)
  | color (name : String)
  | shape (name : String)

def Need.demand? : Need → Option Demand
  | demand d => some d
  | _ => none

namespace Session

/-- Whether a session can give what is needed. The random source always can. -/
def has (s : Session) : Need → Bool
  | .demand _ => true
  | .value name => (s.values.lookup name).isSome
  | .color name => (s.colors.lookup name).isSome
  | .shape name => (s.shapes.lookup name).isSome

/-- What is asked of the random source by someone with these needs, in order: all until the first
name that is unknown. -/
def asked (s : Session) (needs : List Need) : List Demand :=
  (needs.takeWhile s.has).filterMap Need.demand?

variable {s : Session} {needs more : List Need}

/-- Where everything is known, all demands are asked. -/
theorem asked_of_has (h : ∀ need ∈ needs, s.has need) :
    s.asked needs = needs.filterMap Need.demand? := by
  have hall : needs.takeWhile s.has = needs := List.takeWhile_eq_self_iff.2 h
  rw [asked, hall]

theorem asked_append_of_has (h : ∀ need ∈ needs, s.has need) :
    s.asked (needs ++ more) = s.asked needs ++ s.asked more := by
  rw [asked_of_has h, asked, List.takeWhile_append_of_pos h, List.filterMap_append]
  rfl

/-- After a name that is unknown nothing more is asked. -/
theorem asked_append_of_lacks (h : ¬∀ need ∈ needs, s.has need) :
    s.asked (needs ++ more) = s.asked needs := by
  have hsome : (needs.takeWhile s.has).length ≠ needs.length := by
    intro hlength
    have hall := (List.takeWhile_prefix s.has).eq_of_length hlength
    exact h (List.takeWhile_eq_self_iff.1 hall)
  rw [asked, List.takeWhile_append, if_neg hsome]
  rfl

end Session

/-- What a description of a value needs, from left to right. -/
def Expr.needs : Expr → List Need
  | number _ | scalar _ => []
  | named name => [.value name]
  | leaf d => [.demand (.leaf d)]
  | method _ target argument => target.needs ++ argument.needs
  | operator _ left right _ => left.needs ++ right.needs
  | chain _ start argument _ => start.needs ++ argument.needs
  | double _ start _ => start.needs

def ColorExpr.needs : ColorExpr → List Need
  | named name => [.color name]
  | made c => c.channels.flatMap Expr.needs

/-- What a form needs: what its numbers, its stroke and its fill need. -/
def ShapeExpr.needsOfForm (form : Form Expr ColorExpr) : List Need :=
  (form.numbers.map Expr.needs ++
    [form.stroke?.elim [] ColorExpr.needs, form.fill?.elim [] ColorExpr.needs]).flatten

namespace ShapeExpr

mutual

/-- What a description of a shape needs: first for its form, then for its children. -/
def needs : ShapeExpr → List Need
  | named name => [.shape name]
  | made form items _ => needsOfForm form ++ needsOfItems items

def needsOfItems : List ShapeExpr → List Need
  | [] => []
  | item :: rest => item.needs ++ needsOfItems rest

end

end ShapeExpr

/-! ## Actions of a session -/

namespace Acting

variable {α β : Type} {x : Acting α} {k : α → Acting β} {needs more : List Need}

/-- Whether an action asks for just what these needs make it ask of the source. -/
def Asks (needs : List Need) (x : Acting α) : Prop :=
  ∀ s, (x.on s).2.studio.source = s.studio.source.after (s.asked needs)

/-- Whether an action works something out by these needs: it asks for them, leaves all names as they
are, and ends in a fault just when there is a name that is unknown. -/
structure Evaluates (needs : List Need) (x : Acting α) : Prop where
  asks : Asks needs x
  names : ∀ s, ∃ studio, (x.on s).2 = { s with studio }
  ok_iff : ∀ s, (∃ a, (x.on s).1 = .ok a) ↔ ∀ need ∈ needs, s.has need

/-- What goes on without asking for more adds nothing. -/
theorem Asks.quiet (hx : Asks needs x) (hk : ∀ a, Asks [] (k a)) : Asks needs (x >>= k) := by
  intro s
  have hsource := hx s
  rcases hfirst : x.on s with ⟨fault | a, s₁⟩
  · rw [on_bind_of_error hfirst, ← hsource, hfirst]
  · rw [on_bind_of_ok hfirst, hk a s₁, ← hsource, hfirst]
    rfl

/-- Two actions in a row ask for the needs of both: if the first one is a fault, then nothing of the
second is asked. -/
theorem Evaluates.bind_asks (hx : Evaluates needs x) (hk : ∀ a, Asks more (k a)) :
    Asks (needs ++ more) (x >>= k) := by
  intro s
  have hsource := hx.asks s
  have hok := hx.ok_iff s
  obtain ⟨studio, hs₁⟩ := hx.names s
  rcases hfirst : x.on s with ⟨fault | a, s₁⟩
  · have hlacks : ¬∀ need ∈ needs, s.has need := by
      rw [← hok, hfirst]
      exact nofun
    rw [on_bind_of_error hfirst, Session.asked_append_of_lacks hlacks, ← hsource, hfirst]
  · have hhas : ∀ need ∈ needs, s.has need := hok.1 ⟨a, by rw [hfirst]⟩
    rw [hfirst] at hsource hs₁
    obtain rfl : s₁ = { s with studio } := hs₁
    rw [on_bind_of_ok hfirst, hk a, hsource, Session.asked_append_of_has hhas,
      Random.Source.after_append]
    rfl

theorem Evaluates.bind (hx : Evaluates needs x) (hk : ∀ a, Evaluates more (k a)) :
    Evaluates (needs ++ more) (x >>= k) where
  asks := hx.bind_asks fun a => (hk a).asks
  names s := by
    obtain ⟨studio, hs₁⟩ := hx.names s
    rcases hfirst : x.on s with ⟨fault | a, s₁⟩
    · rw [hfirst] at hs₁
      rw [on_bind_of_error hfirst]
      exact ⟨studio, hs₁⟩
    · rw [hfirst] at hs₁
      obtain rfl : s₁ = { s with studio } := hs₁
      rw [on_bind_of_ok hfirst]
      exact (hk a).names _
  ok_iff s := by
    obtain ⟨studio, hs₁⟩ := hx.names s
    rw [List.forall_mem_append, ← hx.ok_iff s]
    rcases hfirst : x.on s with ⟨fault | a, s₁⟩
    · rw [on_bind_of_error hfirst]
      simp
    · rw [hfirst] at hs₁
      obtain rfl : s₁ = { s with studio } := hs₁
      rw [on_bind_of_ok hfirst, (hk a).ok_iff]
      exact ⟨fun h => ⟨⟨a, rfl⟩, h⟩, fun h => h.2⟩

theorem Evaluates.quiet (hx : Evaluates needs x) (hk : ∀ a, Evaluates [] (k a)) :
    Evaluates needs (x >>= k) := by
  have hbind := hx.bind hk
  rwa [List.append_nil] at hbind

theorem evaluates_pure (a : α) : Evaluates [] (pure a) where
  asks _ := rfl
  names s := ⟨s.studio, rfl⟩
  ok_iff _ := ⟨fun _ => nofun, fun _ => ⟨a, rfl⟩⟩

theorem Evaluates.map (g : α → β) (hx : Evaluates needs x) :
    Evaluates needs (do return g (← x)) :=
  hx.quiet fun a => evaluates_pure (g a)

theorem asks_pure (a : α) : Asks [] (pure a) := (evaluates_pure a).asks

theorem Asks.map (g : α → β) (hx : Asks needs x) : Asks needs (do return g (← x)) :=
  hx.quiet fun a => asks_pure (g a)

theorem asks_throw (fault : Fault) : Asks [] (throw fault : Acting α) := fun _ => rfl

theorem asks_seed (seed : UInt64) :
    Asks [.demand (.seed seed)]
      (modify fun s => { s with studio.source := s.studio.source.reseed seed }) :=
  fun _ => rfl

theorem asks_modify {f : Session → Session} (h : ∀ s, (f s).studio = s.studio) :
    Asks [] (modify f : Acting Unit) := by
  intro s
  rw [on_modify, h]
  rfl

/-- What is made needs no name. -/
theorem evaluates_make {action : Making α} {bill : List Demand} (h : action.Asks bill) :
    Evaluates (bill.map .demand) (make action) where
  asks s := by
    have hhas : ∀ need ∈ bill.map Need.demand, s.has need := by simp [Session.has]
    have hbill : (bill.map Need.demand).filterMap Need.demand? = bill := by
      rw [List.filterMap_map]
      exact List.filterMap_some
    rw [Session.asked_of_has hhas, hbill]
    exact h s.studio
  names s := ⟨(action s.studio).2, rfl⟩
  ok_iff s := by
    constructor
    · intro _
      simp [Session.has]
    · intro _
      exact ⟨(action s.studio).1, rfl⟩

theorem asks_draws : Asks [] draws := fun _ => rfl

/-- A name is looked up: it is known, or that is the fault. -/
theorem evaluates_named {names : Session → Names α} {need : Need} {name : String}
    (h : ∀ s : Session, s.has need = ((names s).lookup name).isSome) (hneed : need.demand? = none) :
    Evaluates [need] (named names name) := by
  have hon : ∀ s, (named names name).on s =
      (((names s).lookup name).elim (.error (.unknownName name)) .ok, s) := by
    intro s
    rw [named, on_bind_of_ok (on_get s)]
    cases (names s).lookup name with
    | none => rfl
    | some a => rfl
  constructor
  · intro s
    have hasked : s.asked [need] = [] := by
      rw [Session.asked, List.takeWhile_cons]
      split <;> simp [hneed]
    rw [hon, hasked]
    rfl
  · intro s
    exact ⟨s.studio, by rw [hon]⟩
  · intro s
    rw [hon, List.forall_mem_singleton, h]
    cases (names s).lookup name with
    | none => simp
    | some a => simp

theorem evaluates_value (name : String) :
    Evaluates [.value name] (named Session.values name) :=
  evaluates_named (fun _ => rfl) rfl

theorem evaluates_color (name : String) :
    Evaluates [.color name] (named Session.colors name) :=
  evaluates_named (fun _ => rfl) rfl

theorem evaluates_shape (name : String) :
    Evaluates [.shape name] (named Session.shapes name) :=
  evaluates_named (fun _ => rfl) rfl

end Acting

/-! ## Evaluating descriptions -/

open Acting

namespace Making

theorem asks_callTimes (m : Method) (argument : Value) (times : Nat) (n : Node) :
    (Expr.callTimes m argument times n).Asks [] := by
  induction times generalizing n with
  | zero => exact Making.asks_pure n
  | succ times ih => exact (Making.asks_call m n argument).bind ih

theorem asks_callOnSelf (m : Method) (times : Nat) (n : Node) :
    (Expr.callOnSelf m times n).Asks [] := by
  induction times generalizing n with
  | zero => exact Making.asks_pure n
  | succ times ih => exact (Making.asks_call m n n).bind ih

end Making

theorem Expr.evaluates_eval (e : Expr) : Evaluates e.needs e.eval := by
  induction e with
  | number x => exact evaluates_pure _
  | named name => exact evaluates_value name
  | scalar x => exact (evaluates_make (Making.asks_scalar x)).map _
  | leaf d => exact (evaluates_make (Making.asks_leaf d)).map _
  | method m target argument ihTarget ihArgument =>
    apply ihTarget.bind
    intro v
    apply ihArgument.quiet
    intro w
    have hcall := (Making.asks_lift v).bind fun n => Making.asks_call m n w
    exact (evaluates_make hcall).map _
  | operator op left right how ihLeft ihRight =>
    apply ihLeft.bind
    intro v
    apply ihRight.quiet
    intro w
    exact (evaluates_make (Making.asks_onValues op how v w)).map _
  | chain m start argument times ihStart ihArgument =>
    apply ihStart.bind
    intro v
    apply ihArgument.quiet
    intro w
    have hcalls := (Making.asks_lift v).bind (Making.asks_callTimes m w times)
    exact (evaluates_make hcalls).map _
  | double m start times ihStart =>
    apply ihStart.quiet
    intro v
    have hcalls := (Making.asks_lift v).bind (Making.asks_callOnSelf m times)
    exact (evaluates_make hcalls).map _

theorem Expr.evaluates_evalNode (e : Expr) : Evaluates e.needs e.evalNode :=
  e.evaluates_eval.quiet fun v => evaluates_make (Making.asks_lift v)

theorem ColorExpr.evaluates_eval (c : ColorExpr) : Evaluates c.needs c.eval := by
  cases c with
  | named name => exact evaluates_color name
  | made c =>
    cases c with
    | css text => exact evaluates_pure _
    | hsla a b c d | rgba a b c d =>
      exact a.evaluates_eval.bind fun _ => b.evaluates_eval.bind fun _ =>
        c.evaluates_eval.bind fun _ => d.evaluates_eval.bind fun _ => evaluates_pure _

theorem ColorExpr.evaluates_mapColor (c : Option ColorExpr) :
    Evaluates (c.elim [] ColorExpr.needs) (Form.mapColor ColorExpr.eval c) := by
  cases c with
  | none => exact evaluates_pure _
  | some c => exact c.evaluates_eval.map some

namespace ShapeExpr

theorem evaluates_mapM (form : Form Expr ColorExpr) :
    Evaluates (needsOfForm form) (form.mapM Expr.eval ColorExpr.eval) := by
  cases form with
  | rect a b c d stroke fill | ellipse a b c d stroke fill | polygon a b c d stroke fill =>
    exact a.evaluates_eval.bind fun _ => b.evaluates_eval.bind fun _ =>
      c.evaluates_eval.bind fun _ => d.evaluates_eval.bind fun _ =>
        (ColorExpr.evaluates_mapColor stroke).bind fun _ =>
          (ColorExpr.evaluates_mapColor fill).bind fun _ => evaluates_pure _
  | square a b c stroke fill | circle a b c stroke fill =>
    exact a.evaluates_eval.bind fun _ => b.evaluates_eval.bind fun _ =>
      c.evaluates_eval.bind fun _ => (ColorExpr.evaluates_mapColor stroke).bind fun _ =>
        (ColorExpr.evaluates_mapColor fill).bind fun _ => evaluates_pure _
  | line a b c d stroke =>
    exact a.evaluates_eval.bind fun _ => b.evaluates_eval.bind fun _ =>
      c.evaluates_eval.bind fun _ => d.evaluates_eval.bind fun _ =>
        (ColorExpr.evaluates_mapColor stroke).bind fun _ => evaluates_pure _
  | group a b c d =>
    exact a.evaluates_eval.bind fun _ => b.evaluates_eval.bind fun _ =>
      c.evaluates_eval.bind fun _ => d.evaluates_eval.bind fun _ => evaluates_pure _

mutual

theorem evaluates_eval : (s : ShapeExpr) → Evaluates s.needs s.eval
  | named name => by
    rw [eval, needs]
    exact evaluates_shape name
  | made form items qualifiers => by
    rw [eval, needs]
    apply (evaluates_mapM form).bind
    intro form
    exact (evaluates_evalItems items).map fun items => Shape.mk form items qualifiers

theorem evaluates_evalItems :
    (items : List ShapeExpr) → Evaluates (needsOfItems items) (evalItems items)
  | [] => by
    rw [evalItems, needsOfItems]
    exact evaluates_pure []
  | item :: rest => by
    rw [evalItems, needsOfItems]
    apply (evaluates_eval item).bind
    intro shape
    exact (evaluates_evalItems rest).map (shape :: ·)

end

end ShapeExpr

/-! ## Steps -/

namespace Step

/-- What a step needs: what it describes, the samples that it takes, the seed that it sets, and the
shape that it is about. -/
def needs : Step → List Need
  | seed n => [.demand (.seed n)]
  | sample d times => List.replicate times (.demand (.sample d))
  | leaf d => [.demand (.leaf d)]
  | define _ e | child _ e _ | describe e | lift e | resolve e | resolveNode e | display e
  | valueJson e => e.needs
  | same a b | combine _ a b => a.needs ++ b.needs
  | defineColor _ c | css c | channels c | colorJson c => c.needs
  | defineShape _ s => s.needs
  | addItem name item => item.needs ++ [.shape name]
  | setField name _ e => e.needs ++ [.shape name]
  | qualify name _ | info name | resolveAll name | json name _ | toolJson name _
  | toolSerialize name => [.shape name]
  | draws | apply .. => []

theorem asks_described (v : Value) : Asks [] (described v) := asks_draws.map _

theorem asks_keep (name : String) (v : Value) : Asks [] (keep name v) := by
  have hkeep : Asks [] (modify fun s : Session => { s with values := (name, v) :: s.values }) :=
    asks_modify fun _ => rfl
  exact hkeep.quiet fun _ => asks_described v

theorem asks_update (name : String) (s : Shape) : Asks [] (update name s) :=
  asks_modify fun _ => rfl

/-- **A step asks for what it needs**, and for nothing else. -/
theorem asks_run (step : Step) : Asks step.needs step.run := by
  cases step with
  | seed n => exact (asks_seed n).quiet fun _ => asks_draws.map _
  | draws => exact asks_draws.map _
  | define name e => exact e.evaluates_eval.asks.quiet (asks_keep name)
  | child name e side =>
    apply e.evaluates_evalNode.asks.quiet
    intro n
    cases n.child? side with
    | none => exact asks_throw _
    | some c => exact asks_keep name c
  | describe e => exact e.evaluates_eval.asks.quiet asks_described
  | lift e => exact e.evaluates_evalNode.asks.quiet fun n => asks_described n
  | resolve e => exact e.evaluates_eval.asks.map _
  | resolveNode e => exact e.evaluates_evalNode.asks.map _
  | display e => exact e.evaluates_evalNode.asks.map _
  | same a b =>
    exact a.evaluates_evalNode.bind_asks fun n => b.evaluates_evalNode.asks.map _
  | valueJson e => exact e.evaluates_eval.asks.map _
  | apply op l r => exact asks_pure _
  | combine op l r =>
    apply l.evaluates_evalNode.bind_asks
    intro n
    apply r.evaluates_evalNode.asks.quiet
    intro m
    exact (evaluates_make (Making.asks_combinator op n m)).asks.map _
  | sample d times =>
    have hsamples := (evaluates_make (Making.asks_samples d times)).asks
    rw [List.map_replicate] at hsamples
    exact hsamples.quiet fun xs => asks_draws.map _
  | leaf d =>
    exact (evaluates_make (Making.asks_leaf d)).asks.quiet fun n => asks_draws.map _
  | defineColor name c =>
    apply c.evaluates_eval.asks.quiet
    intro c
    have hkeep : Asks [] (modify fun s : Session => { s with colors := (name, c) :: s.colors }) :=
      asks_modify fun _ => rfl
    exact hkeep.quiet fun _ => asks_draws.map _
  | css c => exact c.evaluates_eval.asks.map _
  | channels c => exact c.evaluates_eval.asks.map _
  | colorJson c => exact c.evaluates_eval.asks.map _
  | defineShape name s =>
    apply s.evaluates_eval.asks.quiet
    intro s
    exact (asks_update name s).quiet fun _ => asks_draws.map _
  | addItem name item =>
    apply item.evaluates_eval.bind_asks
    intro item
    exact (evaluates_shape name).asks.quiet fun s => (asks_update name _).map _
  | qualify name q =>
    exact (evaluates_shape name).asks.quiet fun s => (asks_update name _).map _
  | setField name field e =>
    apply e.evaluates_eval.bind_asks
    intro v
    apply (evaluates_shape name).asks.quiet
    intro s
    cases s.form.set? field v with
    | none => exact asks_throw _
    | some form => exact (asks_update name _).quiet fun _ => asks_draws.map _
  | info name => exact (evaluates_shape name).asks.map _
  | resolveAll name => exact (evaluates_shape name).asks.map _
  | json name form => exact (evaluates_shape name).asks.map _
  | toolJson name form =>
    apply (evaluates_shape name).asks.quiet
    intro s
    cases form.write s with
    | ok text => exact asks_pure _
    | error e => exact asks_pure _
  | toolSerialize name =>
    apply (evaluates_shape name).asks.quiet
    intro s
    cases s.json with
    | ok tree => exact asks_pure _
    | error cause => exact asks_pure _

/-- What some steps ask for, one after the other. A step that is a fault has asked for something as
well: for what it needs before the fault. -/
def billAll : List Step → Session → List Demand
  | [], _ => []
  | step :: rest, s => s.asked step.needs ++ billAll rest (step.run.on s).2

/-- **The source after any steps is the source after their bill.** -/
theorem source_runAll (steps : List Step) (s : Session) :
    (runAll steps s).2.studio.source = s.studio.source.after (billAll steps s) := by
  induction steps generalizing s with
  | nil => rfl
  | cons step rest ih =>
    have hrest := ih (step.run.on s).2
    rw [step.asks_run s, ← Random.Source.after_append] at hrest
    exact hrest

end Step

/-! ## Looking at drawings -/

namespace Shape

mutual

/-- The nodes of a shape are those of its values. -/
theorem nodes_eq_document : (s : Shape) → s.nodes = s.document.flatMap Value.nodes
  | ⟨form, items, qualifiers⟩ => by
    rw [nodes, document, Form.nodes, form.values_eq, nodesOfItems_eq_document items,
      ← List.flatMap_append]

theorem nodesOfItems_eq_document :
    (items : List Shape) → nodesOfItems items = (documentOfItems items).flatMap Value.nodes
  | [] => rfl
  | item :: rest => by
    rw [nodesOfItems, documentOfItems, nodes_eq_document item, nodesOfItems_eq_document rest,
      List.flatMap_append]

end

end Shape

namespace Ledger

variable {ledger : Ledger} {seen : List Value}

theorem Knows.values (h : ledger.Knows (seen.flatMap Value.nodes)) :
    ∀ v ∈ seen, ∃ f, ledger.Has v f := by
  intro v hv
  apply Knows.value
  exact h.mono fun n hn => List.mem_flatMap.2 ⟨v, hv, hn⟩

/-- Checking or writing a shape whose nodes were built is a look at its values. -/
theorem lookAt_document (hsound : ledger.Sound) {s : Shape} (h : ledger.Knows s.nodes) :
    lookAt s.document ledger = (s.resolveAll, ledger) ∧
      lookAt s.document ledger = (discard s.json, ledger) := by
  rw [s.nodes_eq_document] at h
  have hlook := lookAt_eq hsound h.values
  rw [s.worksOut_resolveAll.eq_workThrough, s.worksOut_json]
  exact ⟨hlook, hlook⟩

/-- Writing a colour whose nodes were built is a look at its channels. -/
theorem lookAt_channels (hsound : ledger.Sound) {c : Color Value} (h : ledger.Knows c.nodes) :
    lookAt c.channels ledger = (discard c.toCss, ledger) := by
  rw [c.worksOut_toCss]
  exact lookAt_eq hsound h.values

end Ledger

/-- **Every draw is accounted for.** The count of draws goes up by one for each leaf and for each
sample and does not change otherwise; a seed changes the generator alone. Every run of library calls
has a bill of these, and the source after the run is the source after the bill; any other call, and
any look at a value, a colour or a shape, leaves the source as it is. The same holds of sessions,
whose bill can be told from their steps, those that are faults among them. -/
theorem draws_accounted_for :
    (∀ (source : Random.Source) (bill : List Demand) (seed : UInt64),
      (source.after bill).draws =
        source.draws + bill.countP Demand.isLeaf + bill.countP Demand.isSample ∧
      source.after (bill ++ [.seed seed]) = ⟨.ofSeed seed, (source.after bill).draws⟩) ∧
    (∀ studio ledger, Ledger.Run (.opening studio) ledger →
      ∃ bill, Ledger.BilledRun (.opening studio) bill ledger) ∧
    (∀ studio bill ledger, Ledger.BilledRun (.opening studio) bill ledger →
      ledger.studio.source = studio.source.after bill ∧
      (∀ ledger', Ledger.Quiet ledger ledger' → ledger'.studio.source = ledger.studio.source) ∧
      (∀ s : Shape, ledger.Knows s.nodes →
        Ledger.lookAt s.document ledger = (s.resolveAll, ledger) ∧
        Ledger.lookAt s.document ledger = (discard s.json, ledger)) ∧
      ∀ c : Color Value, ledger.Knows c.nodes →
        Ledger.lookAt c.channels ledger = (discard c.toCss, ledger)) ∧
    ∀ (steps : List Step) (s : Session),
      (Step.runAll steps s).2.studio.source = s.studio.source.after (Step.billAll steps s) := by
  refine ⟨fun source bill seed => ⟨source.draws_after bill, source.after_seed bill seed⟩,
    fun studio ledger hrun => hrun.billed, ?_, Step.source_runAll⟩
  intro studio bill ledger hrun
  have hopening := Ledger.sound_opening studio
  have hsound := (hopening.run (hrun.run hopening)).1
  exact ⟨hrun.source_eq hopening, fun ledger' hquiet => hquiet.source_eq hsound,
    fun s hs => Ledger.lookAt_document hsound hs, fun c hc => Ledger.lookAt_channels hsound hc⟩

/-- A leaf that is made, then looked at twice in a row, and then a sample: two draws. -/
theorem draws_accounted_for_leaf :
    let studio := (Session.ofSeed 7).studio
    let d := Distribution.normalInt 4.5 2
    let n := (Making.leaf d studio).1
    let looked := (Ledger.lookAt [n, n] ((Ledger.opening studio).buildLeaf d)).2
    (Making.sample d looked.studio).2.source = studio.source.after [.leaf d, .sample d] ∧
      (studio.source.after [.leaf d, .sample d]).draws = 2 := by
  intro studio d n looked
  obtain ⟨hdraws, -, hbilled, -⟩ := draws_accounted_for
  have hn : (n, Formula.draw 0) ∈ ((Ledger.opening studio).buildLeaf d).built :=
    List.mem_cons_self
  have hlook : Ledger.Quiet ((Ledger.opening studio).buildLeaf d) looked :=
    .look (by simpa using ⟨_, .node hn⟩)
  have hrun : Ledger.BilledRun (.opening studio) [.leaf d, .sample d]
      { looked with studio := (Making.sample d looked.studio).2 } :=
    .tail (.tail (.tail .refl (.leaf d)) (.quiet hlook)) (.sample d)
  exact ⟨(hbilled _ _ _ hrun).1, (hdraws studio.source _ 0).1⟩

end Atelier
