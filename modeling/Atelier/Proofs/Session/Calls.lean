import Atelier.Proofs.Action
import Atelier.Proofs.Session.Held

/-!
# Sessions are runs of library calls

Whatever a session does, it does by library calls: beside each session there is a ledger that has
the same studio and in which every node that the session holds was built. So what is known of runs
of library calls is known of sessions. A step that ends in a fault has made its calls until then.
-/

namespace Atelier

open Ledger Atelier.Action

namespace Ledger

variable {ledger ledger' : Ledger} {ns ms : List Node} {n : Node} {v : Value}

/-- Whether each of some nodes was built in a ledger. -/
def Knows (ledger : Ledger) (ns : List Node) : Prop :=
  ∀ n ∈ ns, ∃ f, (n, f) ∈ ledger.built

theorem knows_nil (ledger : Ledger) : ledger.Knows [] := by simp [Knows]

theorem knows_append : ledger.Knows (ns ++ ms) ↔ ledger.Knows ns ∧ ledger.Knows ms :=
  List.forall_mem_append

theorem Knows.mono (hsub : ns ⊆ ms) (h : ledger.Knows ms) : ledger.Knows ns :=
  fun n hn => h n (hsub hn)

theorem Knows.kept (hkept : Kept ledger ledger') (h : ledger.Knows ns) : ledger'.Knows ns :=
  fun n hn => (h n hn).imp fun _ hf => hkept.built _ hf

theorem Knows.node (h : ledger.Knows [n]) : ∃ f, (n, f) ∈ ledger.built :=
  h n List.mem_cons_self

theorem Knows.value (h : ledger.Knows v.nodes) : ∃ f, ledger.Has v f := by
  cases v with
  | number x => exact ⟨_, .number x⟩
  | node n =>
    obtain ⟨f, hf⟩ := h.node
    exact ⟨f, .node hf⟩

/-- Whether a ledger goes along with a session: it has the same studio, and all that the session
holds was built in it. -/
structure GoesWith (ledger : Ledger) (s : Session) : Prop where
  studio : ledger.studio = s.studio
  knows : ledger.Knows s.nodes

end Ledger

namespace Acting

variable {α β : Type} {given more : List Node} {x : Acting α} {k : α → Acting β} {a : α}
  {nodes : α → List Node} {nodes' : β → List Node} {v w : Value} {n m : Node}

/-- Whether an action is a run of library calls, if the given nodes were built before, and also
where it ends in a fault. If it has a result, then the nodes of that were built as well. -/
def Follows (given : List Node) (x : Acting α) (nodes : α → List Node) : Prop :=
  ∀ ledger s, ledger.Sound → ledger.GoesWith s → ledger.Knows given →
    ∃ ledger', Run ledger ledger' ∧ ledger'.GoesWith (x.on s).2 ∧
      ∀ a, (x.on s).1 = .ok a → ledger'.Knows (nodes a)

/-- An answer has no nodes. -/
def noNodes (_ : α) : List Node := []

/-! ## Putting actions together -/

theorem Follows.bind (hx : Follows given x nodes)
    (hk : ∀ a, Follows (nodes a ++ given) (k a) nodes') : Follows given (x >>= k) nodes' := by
  intro ledger s hsound hgoes hgiven
  obtain ⟨ledger₁, hrun₁, hgoes₁, hknows⟩ := hx ledger s hsound hgoes hgiven
  rcases hfirst : x.on s with ⟨fault | a, s₁⟩
  · -- A fault ends the action, with all that was done until then.
    rw [hfirst] at hgoes₁
    rw [on_bind_of_error hfirst]
    exact ⟨ledger₁, hrun₁, hgoes₁, nofun⟩
  · rw [hfirst] at hgoes₁ hknows
    rw [on_bind_of_ok hfirst]
    obtain ⟨hsound₁, hkept⟩ := hsound.run hrun₁
    obtain ⟨ledger', hrun', hresult⟩ := hk a ledger₁ s₁ hsound₁ hgoes₁
      (knows_append.2 ⟨hknows a rfl, hgiven.kept hkept⟩)
    exact ⟨ledger', hrun₁.trans hrun', hresult⟩

theorem follows_pure (h : nodes a ⊆ given) : Follows given (pure a) nodes := by
  intro ledger s hsound hgoes hgiven
  refine ⟨ledger, .refl, hgoes, ?_⟩
  rintro b ⟨rfl⟩
  exact hgiven.mono h

theorem follows_throw (fault : Fault) : Follows given (throw fault : Acting α) nodes :=
  fun ledger _ _ hgoes _ => ⟨ledger, .refl, hgoes, nofun⟩

/-- Taking a child of a node is a call as well. -/
theorem Follows.child {side : Side} {c : Node} (h : Follows (c :: given) x nodes) (hn : n ∈ given)
    (hchild : n.child? side = some c) : Follows given x nodes := by
  intro ledger s hsound hgoes hgiven
  obtain ⟨f, hf⟩ := hgiven n hn
  -- Only a node that was built from an operator and two formulas has children.
  have htaken : ∃ g, Call ledger { ledger with built := (c, g) :: ledger.built } := by
    cases hsound.stands n f hf with
    | scalar => cases side <;> simp [Node.child?] at hchild
    | leaf => cases side <;> simp [Node.child?] at hchild
    | combinator i op hl hr =>
      cases side with
      | left =>
        obtain rfl := Option.some.inj hchild
        exact ⟨_, .left hf⟩
      | right =>
        obtain rfl := Option.some.inj hchild
        exact ⟨_, .right hf⟩
  obtain ⟨g, hcall⟩ := htaken
  have hkept := hcall.kept hsound
  have hknows : Knows { ledger with built := (c, g) :: ledger.built } (c :: given) :=
    List.forall_mem_cons.2 ⟨⟨g, List.mem_cons_self⟩, hgiven.kept hkept⟩
  obtain ⟨ledger', hrun', hresult⟩ := h _ s (hsound.call hcall)
    ⟨hgoes.studio, hgoes.knows.kept hkept⟩ hknows
  exact ⟨ledger', .head hcall hrun', hresult⟩

/-! ## Looking at the session and naming something -/

theorem follows_get : Follows given (get : Acting Session) Session.nodes := by
  intro ledger s hsound hgoes hgiven
  refine ⟨ledger, .refl, hgoes, ?_⟩
  rintro _ ⟨rfl⟩
  exact hgoes.knows

theorem follows_draws : Follows given draws noNodes :=
  follows_get.bind fun _ => follows_pure (List.nil_subset _)

/-- What a name stands for is held by the session. -/
theorem follows_named {names : Session → Names α} (name : String)
    (hnames : ∀ s, ∀ e ∈ names s, nodes e.2 ⊆ s.nodes) :
    Follows given (named names name) nodes := by
  rw [named]
  refine follows_get.bind fun s => ?_
  cases hlookup : (names s).lookup name with
  | none => exact follows_throw _
  | some a =>
    obtain ⟨_, _, hsplit, -⟩ := List.lookup_eq_some_iff.1 hlookup
    have hmem : (name, a) ∈ names s := by simp [hsplit]
    exact follows_pure (List.Subset.trans (hnames s _ hmem) (List.subset_append_left _ _))

theorem follows_modify {f : Session → Session} (hstudio : ∀ s, (f s).studio = s.studio)
    (hnodes : ∀ s, (f s).nodes ⊆ given ++ s.nodes) :
    Follows given (modify f : Acting Unit) noNodes := by
  intro ledger s hsound hgoes hgiven
  have hknows := (knows_append.2 ⟨hgiven, hgoes.knows⟩).mono (hnodes s)
  exact ⟨ledger, .refl, ⟨hgoes.studio.trans (hstudio s).symm, hknows⟩, fun _ _ => knows_nil _⟩

theorem follows_seed (seed : UInt64) :
    Follows given (modify fun s => { s with studio.source := s.studio.source.reseed seed })
      noNodes := by
  intro ledger s hsound hgoes hgiven
  refine ⟨_, .single (.seed ledger seed), ⟨?_, hgoes.knows⟩, fun _ _ => knows_nil _⟩
  rw [hgoes.studio, on_modify]

/-! ## Making something in the studio -/

theorem make_bind (action : Making α) (k : α → Making β) :
    make (action >>= k) = make action >>= fun a => make (k a) := rfl

theorem follows_make {action : Making α}
    (h : ∀ ledger : Ledger, ledger.Sound → ledger.Knows given → ∃ ledger', Run ledger ledger' ∧
      ledger'.studio = (action ledger.studio).2 ∧
        ledger'.Knows (nodes (action ledger.studio).1)) :
    Follows given (make action) nodes := by
  intro ledger s hsound hgoes hgiven
  obtain ⟨ledger', hrun', hstudio, hknows⟩ := h ledger hsound hgiven
  rw [hgoes.studio] at hstudio hknows
  refine ⟨ledger', hrun', ⟨hstudio, hgoes.knows.kept (hsound.run hrun').2⟩, ?_⟩
  rintro _ ⟨rfl⟩
  exact hknows

/-- An action is one call when what it makes is built from some formula. -/
theorem follows_build {action : Making Node}
    (h : ∀ ledger : Ledger, ledger.Knows given → ∃ f, Call ledger (ledger.build action f)) :
    Follows given (make action) ([·]) := by
  refine follows_make fun ledger _ hgiven => ?_
  obtain ⟨f, hcall⟩ := h ledger hgiven
  refine ⟨_, .single hcall, rfl, fun n hn => ⟨f, ?_⟩⟩
  rw [List.mem_singleton.1 hn]
  exact List.mem_cons_self

theorem follows_scalar (given : List Node) (x : Float) :
    Follows given (make (Making.scalar x)) ([·]) :=
  follows_build fun ledger _ => ⟨_, .scalar ledger x⟩

theorem follows_leaf (given : List Node) (d : Distribution) :
    Follows given (make (Making.leaf d)) ([·]) := by
  refine follows_make fun ledger _ _ => ⟨_, .single (.leaf ledger d), rfl, fun n hn => ?_⟩
  rw [List.mem_singleton.1 hn]
  exact ⟨_, List.mem_cons_self⟩

theorem follows_lift (hv : v.nodes ⊆ given) : Follows given (make v.lift) ([·]) :=
  follows_build fun _ hgiven =>
    let ⟨f, hf⟩ := (hgiven.mono hv).value
    ⟨f, .lift hf⟩

theorem follows_combinator (op : Operator) (hn : n ∈ given) (hm : m ∈ given) :
    Follows given (make (Making.combinator op n m)) ([·]) :=
  follows_build fun _ hgiven =>
    let ⟨_, hf⟩ := hgiven n hn
    let ⟨_, hg⟩ := hgiven m hm
    ⟨_, .combinator op hf hg⟩

theorem follows_call (method : Method) (hn : n ∈ given) (hv : v.nodes ⊆ given) :
    Follows given (make (method.call n v)) ([·]) :=
  follows_build fun _ hgiven =>
    let ⟨_, hf⟩ := hgiven n hn
    let ⟨_, hg⟩ := (hgiven.mono hv).value
    ⟨_, .method method hf hg⟩

theorem follows_onValues (op : Operator) (how : Variant) (hv : v.nodes ⊆ given)
    (hw : w.nodes ⊆ given) : Follows given (make (op.onValues how v w)) ([·]) :=
  follows_build fun _ hgiven =>
    let ⟨_, hf⟩ := (hgiven.mono hv).value
    let ⟨_, hg⟩ := (hgiven.mono hw).value
    ⟨_, .operator op how hf hg⟩

theorem follows_samples (given : List Node) (d : Distribution) (times : Nat) :
    Follows given (make (Making.samples d times)) noNodes := by
  induction times generalizing given with
  | zero => exact follows_pure (List.nil_subset _)
  | succ times ih =>
    have hsample : Follows given (make (Making.sample d)) noNodes :=
      follows_make fun ledger _ _ => ⟨_, .single (.sample ledger d), rfl, knows_nil _⟩
    rw [Making.samples, make_bind]
    refine hsample.bind fun x => ?_
    rw [make_bind]
    exact (ih _).bind fun rest => follows_pure (List.nil_subset _)

theorem follows_callTimes (method : Method) (times : Nat) (hn : n ∈ given)
    (hv : v.nodes ⊆ given) : Follows given (make (Expr.callTimes method v times n)) ([·]) := by
  induction times generalizing given n with
  | zero => exact follows_pure (by simpa using hn)
  | succ times ih =>
    rw [Expr.callTimes, make_bind]
    exact (follows_call method hn hv).bind fun next =>
      ih (by simp) (List.Subset.trans hv (List.subset_append_right _ _))

theorem follows_callOnSelf (method : Method) (times : Nat) (hn : n ∈ given) :
    Follows given (make (Expr.callOnSelf method times n)) ([·]) := by
  induction times generalizing given n with
  | zero => exact follows_pure (by simpa using hn)
  | succ times ih =>
    have hself : (Value.node n).nodes ⊆ given := by simpa [Value.nodes] using hn
    rw [Expr.callOnSelf, make_bind]
    exact (follows_call method hn hself).bind fun next => ih (by simp)

end Acting

end Atelier
