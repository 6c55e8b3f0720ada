import Atelier.Proofs.Expression.Failure
import Atelier.Proofs.Session.Calls

/-!
# Identities tell nodes apart

Two handles are on one node when their identities are equal (`Node.same`), and nothing else of the
nodes is compared. That this tells nodes apart is a property of runs of library calls: each identity
was given out by the studio, and no two nodes have one (`Studio.Identifies`). It holds of all nodes
that were built and of all that is below them.

A call brings no node, or a number or a leaf of its own, or an operator on two values
(`Ledger.Brings`). Such an operator has the values on the sides where they were given: a node as
that very node, and a number as a new scalar that is shared with nothing (`Ledger.Joins`). There
are no other operators in a run (`Ledger.Run.joined`).
-/

namespace Atelier

/-! ## Nodes and their parts -/

namespace Node

variable {n m : Node} {nodes nodes' : List Node}

/-- Some nodes and all that is below them. -/
def partsOf (nodes : List Node) : List Node :=
  nodes.flatMap postorder

theorem mem_postorder_self (n : Node) : n ∈ n.postorder := by
  cases n <;> simp [postorder]

theorem mem_partsOf (h : n ∈ nodes) : n ∈ partsOf nodes :=
  List.mem_flatMap.2 ⟨n, h, n.mem_postorder_self⟩

theorem postorder_subset (h : n ∈ nodes) : n.postorder ⊆ partsOf nodes :=
  fun _ hm => List.mem_flatMap.2 ⟨n, h, hm⟩

theorem partsOf_subset (h : nodes ⊆ nodes') : partsOf nodes ⊆ partsOf nodes' := by
  intro m hm
  obtain ⟨n, hn, hm⟩ := List.mem_flatMap.1 hm
  exact postorder_subset (h hn) hm

/-- A node that is one of some nodes, or below one of them, adds nothing to their parts. -/
theorem partsOf_cons_subset (h : n.postorder ⊆ partsOf nodes) :
    partsOf (n :: nodes) ⊆ partsOf nodes :=
  List.append_subset.2 ⟨h, List.Subset.refl _⟩

theorem same_iff : n.same m = true ↔ n.identity = m.identity := beq_iff_eq

theorem same_eq_false_of_lt (h : n.identity < m.identity) : n.same m = false :=
  beq_false_of_ne (Nat.ne_of_lt h)

end Node

open Node

/-- Whether a studio tells some nodes apart by their identities, and all that is below them: it gave
out each of the identities, and no two nodes have one. -/
structure Studio.Identifies (studio : Studio) (nodes : List Node) : Prop where
  given : ∀ n ∈ partsOf nodes, n.identity < studio.made
  unique : ∀ n ∈ partsOf nodes, ∀ m ∈ partsOf nodes, n.same m = true → n = m

namespace Studio.Identifies

variable {studio studio' : Studio} {nodes nodes' : List Node} {n : Node}

theorem same_iff_eq (h : studio.Identifies nodes) :
    ∀ n ∈ partsOf nodes, ∀ m ∈ partsOf nodes, (n.same m = true ↔ n = m) := by
  intro n hn m hm
  constructor
  · exact h.unique n hn m hm
  · intro heq
    rw [same_iff, heq]

/-- Where no node was added, all stays told apart. -/
theorem mono (h : studio.Identifies nodes) (hmade : studio.made ≤ studio'.made)
    (hsub : partsOf nodes' ⊆ partsOf nodes) : studio'.Identifies nodes' :=
  ⟨fun n hn => Nat.lt_of_lt_of_le (h.given n (hsub hn)) hmade,
    fun n hn m hm => h.unique n (hsub hn) m (hsub hm)⟩

/-- A node with the next identity, on nodes that were told apart, is told from all of them. -/
theorem make (h : studio.Identifies nodes) (hn : n.identity = studio.made)
    (hbelow : ∀ m ∈ n.postorder, m = n ∨ m ∈ partsOf nodes)
    (hmade : studio'.made = studio.made + 1) : studio'.Identifies (n :: nodes) := by
  have hparts : ∀ m ∈ partsOf (n :: nodes), m = n ∨ m ∈ partsOf nodes := by
    intro m hm
    rcases List.mem_append.1 hm with hm | hm
    · exact hbelow m hm
    · exact .inr hm
  constructor
  · intro m hm
    rcases hparts m hm with rfl | hold
    · omega
    · have hlt := h.given m hold
      omega
  · intro m hm m' hm' hsame
    rw [same_iff] at hsame
    rcases hparts m hm with rfl | hold
    · rcases hparts m' hm' with rfl | hold'
      · rfl
      · have hlt := h.given m' hold'
        omega
    · have hlt := h.given m hold
      rcases hparts m' hm' with rfl | hold'
      · omega
      · exact h.unique m hold m' hold' (same_iff.2 hsame)

/-- A node with nothing below it needs only the next identity. -/
theorem makeAtom (h : studio.Identifies nodes) (hatom : n.postorder = [n])
    (hn : n.identity = studio.made) (hmade : studio'.made = studio.made + 1) :
    studio'.Identifies (n :: nodes) := by
  refine h.make hn (fun m hm => ?_) hmade
  rw [hatom] at hm
  exact .inl (List.mem_singleton.1 hm)

/-- Lifting a value keeps nodes told apart. -/
theorem lift (h : studio.Identifies nodes) {v : Value} (hv : v.nodes ⊆ nodes) :
    (v.lift studio).2.Identifies ((v.lift studio).1 :: nodes) := by
  cases v with
  | number x => exact h.makeAtom rfl rfl rfl
  | node n =>
    have hn : n ∈ nodes := hv List.mem_cons_self
    exact h.mono (Nat.le_refl _) (partsOf_cons_subset (postorder_subset hn))

/-- Joining two nodes keeps nodes told apart. -/
theorem combinator (h : studio.Identifies nodes) {l r : Node} (op : Operator) (hl : l ∈ nodes)
    (hr : r ∈ nodes) :
    (Making.combinator op l r studio).2.Identifies
      ((Making.combinator op l r studio).1 :: nodes) := by
  refine h.make rfl (fun m hm => ?_) rfl
  rcases List.mem_append.1 hm with hm | hm
  · rcases List.mem_append.1 hm with hm | hm
    · exact .inr (postorder_subset hl hm)
    · exact .inr (postorder_subset hr hm)
  · exact .inl (List.mem_singleton.1 hm)

/-- An operator on two values keeps nodes told apart. -/
theorem onValues (h : studio.Identifies nodes) {v w : Value} (op : Operator) (how : Variant)
    (hv : v.nodes ⊆ nodes) (hw : w.nodes ⊆ nodes) :
    (op.onValues how v w studio).2.Identifies ((op.onValues how v w studio).1 :: nodes) := by
  have hboth := (h.lift hv).lift (List.subset_cons_of_subset _ hw)
  have hjoined := hboth.combinator op (List.mem_cons_of_mem _ List.mem_cons_self) List.mem_cons_self
  rw [Making.onValues_eq]
  refine hjoined.mono (Nat.le_refl _) (partsOf_subset (List.cons_subset_cons _ ?_))
  exact List.subset_cons_of_subset _ (List.subset_cons_self _ _)

end Studio.Identifies

namespace Ledger

variable {ledger ledger' : Ledger} {ns : List Node} {v w : Value} {f g : Formula}
  {op op' : Operator} {how : Variant} {l r n : Node} {i : Nat}

/-! ## What a call brings -/

/-- The nodes that were built. -/
def nodes (ledger : Ledger) : List Node :=
  ledger.built.map Prod.fst

theorem mem_nodes (h : (n, f) ∈ ledger.built) : n ∈ ledger.nodes :=
  List.mem_map_of_mem h

theorem Knows.subset_nodes (h : ledger.Knows ns) : ns ⊆ ledger.nodes := by
  intro n hn
  obtain ⟨f, hf⟩ := h n hn
  exact mem_nodes hf

theorem Has.subset_nodes (h : ledger.Has v f) : v.nodes ⊆ ledger.nodes := by
  cases h with
  | number x => exact List.nil_subset _
  | node hn => exact List.cons_subset.2 ⟨mem_nodes hn, List.nil_subset _⟩

/-- What a call does to the nodes of a ledger: it brings none, or a number or a leaf with the next
identity, or an operator on two values. -/
inductive Brings (ledger ledger' : Ledger) : Prop
  | nothing (hsub : partsOf ledger'.nodes ⊆ partsOf ledger.nodes)
      (hmade : ledger'.studio.made = ledger.studio.made)
  | atom {n : Node} (hatom : n.postorder = [n]) (hidentity : n.identity = ledger.studio.made)
      (hnodes : ledger'.nodes = n :: ledger.nodes)
      (hmade : ledger'.studio.made = ledger.studio.made + 1)
  | join {op : Operator} {how : Variant} {v w : Value} {f g : Formula} (hv : ledger.Has v f)
      (hw : ledger.Has w g)
      (hnodes : ledger'.nodes = (op.onValues how v w ledger.studio).1 :: ledger.nodes)
      (hstudio : ledger'.studio = (op.onValues how v w ledger.studio).2)

theorem Call.brings (hsound : ledger.Sound) (hcall : Call ledger ledger') :
    Brings ledger ledger' := by
  cases hcall with
  | seed seed => exact .nothing (List.Subset.refl _) rfl
  | sample d => exact .nothing (List.Subset.refl _) rfl
  | resolve hn =>
    rw [workOut_eq (hsound.stands _ _ hn)]
    exact .nothing (List.Subset.refl _) rfl
  | scalar x => exact .atom rfl rfl rfl rfl
  | leaf d => exact .atom rfl rfl rfl rfl
  | lift hv =>
    cases hv with
    | number x => exact .atom rfl rfl rfl rfl
    | node hn => exact .nothing (partsOf_cons_subset (postorder_subset (mem_nodes hn))) rfl
  | @combinator l r f g op hl hr =>
    have honNodes : Making.combinator op l r = op.onValues .lent (.node l) (.node r) :=
      (Making.onValues_eq op .lent (.node l) (.node r)).symm
    rw [honNodes]
    exact .join (.node hl) (.node hr) rfl rfl
  | method m hn hv =>
    rw [build, Making.call_eq m _ _ .lent]
    cases m with
    | add | subtract | multiply | divide => exact .join (.node hn) hv rfl rfl
    | subFrom | divFrom => exact .join hv (.node hn) rfl rfl
  | operator op how hv hw => exact .join hv hw rfl rfl
  | @left i op op' l r f g hn =>
    have hl : l.postorder ⊆ (Node.combinator i op l r).postorder := by simp [postorder]
    exact .nothing
      (partsOf_cons_subset (List.Subset.trans hl (postorder_subset (mem_nodes hn)))) rfl
  | @right i op op' l r f g hn =>
    have hr : r.postorder ⊆ (Node.combinator i op l r).postorder := by simp [postorder]
    exact .nothing
      (partsOf_cons_subset (List.Subset.trans hr (postorder_subset (mem_nodes hn)))) rfl

/-- One call keeps nodes told apart. -/
theorem Brings.identifies (hbrings : Brings ledger ledger')
    (h : ledger.studio.Identifies ledger.nodes) : ledger'.studio.Identifies ledger'.nodes := by
  cases hbrings with
  | nothing hsub hmade => exact h.mono (Nat.le_of_eq hmade.symm) hsub
  | atom hatom hidentity hnodes hmade =>
    rw [hnodes]
    exact h.makeAtom hatom hidentity hmade
  | @join op how v w f g hv hw hnodes hstudio =>
    rw [hnodes, hstudio]
    exact h.onValues op how hv.subset_nodes hw.subset_nodes

theorem identifies_opening (studio : Studio) :
    (opening studio).studio.Identifies (opening studio).nodes :=
  ⟨by simp [opening, nodes, partsOf], by simp [opening, nodes, partsOf]⟩

/-- **A run keeps nodes told apart.** -/
theorem Run.identifies (hsound : ledger.Sound) (h : ledger.studio.Identifies ledger.nodes)
    (hrun : Run ledger ledger') : ledger'.studio.Identifies ledger'.nodes := by
  induction hrun with
  | refl => exact h
  | tail hrun hcall ih => exact (hcall.brings (hsound.run hrun).1).identifies ih

/-! ## Operands on their sides -/

/-- What an operand becomes: a node stays that very node, and a number becomes a new scalar, which
is none of the nodes that were built and none that is below them. -/
inductive Becomes (ledger : Ledger) : Value → Node → Prop
  | node (n : Node) : Becomes ledger (.node n) n
  | number {i : Nat} (x : Float) (hnew : ∀ m ∈ partsOf ledger.nodes, m.same (.scalar i x) = false) :
      Becomes ledger (.number x) (.scalar i x)

/-- Whether a node is a new one that joins two operands, each on its own side. Both sides are one
node only where this node was given for both, so that a scalar made for a number is on no other
side. -/
inductive Joins (ledger : Ledger) (op : Operator) (v w : Value) : Node → Prop
  | combinator {i : Nat} {l r : Node} (hl : ledger.Becomes v l) (hr : ledger.Becomes w r)
      (hsides : l.same r = true → v = .node l ∧ w = .node r)
      (hnew : ∀ m ∈ partsOf (l :: r :: ledger.nodes), m.same (.combinator i op l r) = false) :
      Joins ledger op v w (.combinator i op l r)

theorem made_le_lift (v : Value) (studio : Studio) : studio.made ≤ (v.lift studio).2.made := by
  cases v with
  | number x => exact Nat.le_succ _
  | node n => exact Nat.le_refl _

/-- An operand is lifted to what it becomes, also behind another one that was lifted. -/
theorem becomes_lift {studio : Studio} (h : ledger.studio.Identifies ledger.nodes)
    (hmade : ledger.studio.made ≤ studio.made) (v : Value) :
    ledger.Becomes v (v.lift studio).1 := by
  cases v with
  | number x =>
    refine .number x fun m hm => same_eq_false_of_lt ?_
    exact Nat.lt_of_lt_of_le (h.given m hm) hmade
  | node n => exact .node n

/-- Two operands become one node only if they are one node. -/
theorem sides_of_same (h : ledger.studio.Identifies ledger.nodes) (hv : v.nodes ⊆ ledger.nodes)
    (hw : w.nodes ⊆ ledger.nodes)
    (hsame : (v.lift ledger.studio).1.same (w.lift (v.lift ledger.studio).2).1 = true) :
    v = .node (v.lift ledger.studio).1 ∧ w = .node (w.lift (v.lift ledger.studio).2).1 := by
  rw [same_iff] at hsame
  cases v with
  | number x =>
    cases w with
    | number y => exact absurd hsame (Nat.ne_of_lt (Nat.lt_succ_self _))
    | node m =>
      have hlt := h.given m (mem_partsOf (hw List.mem_cons_self))
      exact absurd hsame (Nat.ne_of_gt hlt)
  | node n =>
    cases w with
    | number y =>
      have hlt := h.given n (mem_partsOf (hv List.mem_cons_self))
      exact absurd hsame (Nat.ne_of_lt hlt)
    | node m => exact ⟨rfl, rfl⟩

/-- **An operator joins its operands**, whatever they are and in whichever variant. -/
theorem joins_onValues (h : ledger.studio.Identifies ledger.nodes) (op : Operator) (how : Variant)
    (hv : v.nodes ⊆ ledger.nodes) (hw : w.nodes ⊆ ledger.nodes) :
    ledger.Joins op v w (op.onValues how v w ledger.studio).1 := by
  have hboth := (h.lift hv).lift (List.subset_cons_of_subset _ hw)
  rw [Making.onValues_eq]
  refine .combinator (becomes_lift h (Nat.le_refl _) v) (becomes_lift h (made_le_lift v _) w)
    (sides_of_same h hv hw) fun m hm => same_eq_false_of_lt ?_
  exact hboth.given m (partsOf_subset (List.Perm.swap _ _ _).subset hm)

/-! ## Every operator was joined -/

/-- Whether a node joins two values that were there in a ledger. -/
def Joined (ledger : Ledger) (op : Operator) (n : Node) : Prop :=
  ∃ v w f g, ledger.Has v f ∧ ledger.Has w g ∧ ledger.Joins op v w n

/-- Lifting a value brings no operator. -/
theorem mem_of_lift {studio : Studio} (hv : ledger.Has v f)
    (h : .combinator i op l r ∈ (v.lift studio).1.postorder) :
    .combinator i op l r ∈ partsOf ledger.nodes := by
  cases hv with
  | number x => cases List.mem_singleton.1 h
  | node hn => exact postorder_subset (mem_nodes hn) h

/-- An operator on two values brings one operator, which joins them. -/
theorem joined_of_onValues (hid : ledger.studio.Identifies ledger.nodes) (hv : ledger.Has v f)
    (hw : ledger.Has w g)
    (h : .combinator i op l r ∈ (op'.onValues how v w ledger.studio).1.postorder) :
    .combinator i op l r ∈ partsOf ledger.nodes ∨ ledger.Joined op (.combinator i op l r) := by
  have hjoins := joins_onValues hid op' how hv.subset_nodes hw.subset_nodes
  rw [Making.onValues_eq] at h hjoins
  rcases List.mem_append.1 h with h | h
  · rcases List.mem_append.1 h with h | h
    · exact .inl (mem_of_lift hv h)
    · exact .inl (mem_of_lift hw h)
  · have heq := List.mem_singleton.1 h
    obtain ⟨-, rfl, -⟩ := Node.combinator.inj heq
    rw [heq]
    exact .inr ⟨v, w, f, g, hv, hw, hjoins⟩

theorem Brings.joined (hbrings : Brings ledger ledger')
    (hid : ledger.studio.Identifies ledger.nodes)
    (h : .combinator i op l r ∈ partsOf ledger'.nodes) :
    .combinator i op l r ∈ partsOf ledger.nodes ∨ ledger.Joined op (.combinator i op l r) := by
  cases hbrings with
  | nothing hsub hmade => exact .inl (hsub h)
  | atom hatom hidentity hnodes hmade =>
    rw [hnodes] at h
    rcases List.mem_append.1 h with h | h
    · -- An operator has operands below it.
      rw [hatom] at h
      rw [← List.mem_singleton.1 h] at hatom
      have hlength := congrArg List.length hatom
      have hleft := List.length_pos_of_mem l.mem_postorder_self
      simp only [postorder, List.length_append, List.length_singleton] at hlength
      omega
    · exact .inl h
  | join hv hw hnodes hstudio =>
    rw [hnodes] at h
    rcases List.mem_append.1 h with h | h
    · exact joined_of_onValues hid hv hw h
    · exact .inl h

/-- **Every operator was joined at some point of the run**, whatever call it was that built it. -/
theorem Run.joined {studio : Studio} (hrun : Run (opening studio) ledger)
    (h : .combinator i op l r ∈ partsOf ledger.nodes) :
    ∃ before, Run (opening studio) before ∧ Run before ledger ∧
      before.Joined op (.combinator i op l r) := by
  induction hrun with
  | refl => simp [opening, nodes, partsOf] at h
  | @tail before ledger hbefore hcall ih =>
    have hsound := (sound_opening studio).run hbefore
    have hid := Run.identifies (sound_opening studio) (identifies_opening studio) hbefore
    rcases (hcall.brings hsound.1).joined hid h with hold | hjoined
    · obtain ⟨earlier, hearlier, hlater, hjoined⟩ := ih hold
      exact ⟨earlier, hearlier, hlater.tail hcall, hjoined⟩
    · exact ⟨before, hbefore, .single hcall, hjoined⟩

end Ledger

end Atelier
