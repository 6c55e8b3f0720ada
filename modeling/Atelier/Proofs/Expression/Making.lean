import Atelier.Proofs.Expression.Demand
import Mathlib.Data.List.Forall2

/-!
# What actions give

Two ways to speak of an action that makes nodes, wherever it is done: what holds of its result
(`Making.Gives`), and what it has in common with another action that is done in a studio related to
its own (`Making.Coupled`), in particular in the very same one (`Making.Alike`). All go along
`pure`, `>>=` and `mapM`.

A node that divides by plain numbers only, and never by zero, has a value whatever was sampled for
its leaves (`Node.DividesSafely`).
-/

namespace Atelier

/-! ## Division -/

namespace Node

variable {n l r : Node} {op : Operator} {x : Float}

/-- A node with other samples in its leaves. Leaves that are one node get one sample. -/
def resampled (samples : Nat → Float) : Node → Node
  | scalar i x => .scalar i x
  | leaf i d _ => .leaf i d (samples i)
  | combinator i op l r => .combinator i op (l.resampled samples) (r.resampled samples)

/-- Whether all that is divided by in a node are plain numbers other than zero. -/
inductive DividesSafely : Node → Prop
  | scalar (i : Nat) (x : Float) : DividesSafely (.scalar i x)
  | leaf (i : Nat) (d : Distribution) (x : Float) : DividesSafely (.leaf i d x)
  | combinator {op : Operator} {l r : Node} (i : Nat) (hop : op ≠ .divide) (hl : DividesSafely l)
      (hr : DividesSafely r) : DividesSafely (.combinator i op l r)
  | divide {l : Node} {x : Float} (i j : Nat) (hl : DividesSafely l) (hx : (x == 0.0) = false) :
      DividesSafely (.combinator i .divide l (.scalar j x))

theorem DividesSafely.resampled (samples : Nat → Float) (h : n.DividesSafely) :
    (n.resampled samples).DividesSafely := by
  induction h with
  | scalar i x => exact .scalar i x
  | leaf i d x => exact .leaf i d _
  | combinator i hop _ _ ihl ihr => exact .combinator i hop ihl ihr
  | divide i j _ hx ih => exact .divide i j ih hx

/-- Only division fails. -/
theorem exists_apply_eq_ok (hop : op ≠ .divide) (x y : Float) : ∃ z, op.apply x y = .ok z := by
  cases op with
  | divide => exact absurd rfl hop
  | add | subtract | multiply => exact ⟨_, rfl⟩

theorem DividesSafely.resolves (h : n.DividesSafely) : ∃ x, n.resolve = .ok x := by
  induction h with
  | scalar i x => exact ⟨x, rfl⟩
  | leaf i d x => exact ⟨x, rfl⟩
  | combinator i hop _ _ ihl ihr =>
    obtain ⟨x, hx⟩ := ihl
    obtain ⟨y, hy⟩ := ihr
    obtain ⟨z, hz⟩ := exists_apply_eq_ok hop x y
    exact ⟨z, by rw [resolve, hx, hy]; exact hz⟩
  | @divide l x i j _ hx ih =>
    obtain ⟨y, hy⟩ := ih
    refine ⟨y / x, ?_⟩
    rw [resolve, hy]
    simp [resolve, Operator.apply, hx, bind, Except.bind]

end Node

namespace Making

variable {α α' β β' γ : Type} {P : α → Prop} {Q : β → Prop} {R : α → α' → Prop}
  {S : β → β' → Prop} {K : Studio → Studio → Prop} {x : Making α} {x' : Making α'} {a : α}
  {a' : α'} {bill : List Demand}

/-- What comes after an action is done on its result, in the studio that it left. -/
theorem bind_apply (x : Making α) (k : α → Making β) (studio : Studio) :
    (x >>= k) studio = k (x studio).1 (x studio).2 :=
  rfl

/-! ## One action -/

/-- Whether a property holds of what an action gives, wherever it is done. -/
def Gives (P : α → Prop) (x : Making α) : Prop :=
  ∀ studio, P (x studio).1

theorem Gives.bind {k : α → Making β} (h : Gives P x) (hk : ∀ a, P a → Gives Q (k a)) :
    Gives Q (x >>= k) :=
  fun studio => hk _ (h studio) _

theorem gives_pure (h : P a) : Gives P (pure a) := fun _ => h

theorem Gives.mapM {f : γ → Making α} (h : ∀ c, Gives P (f c)) (items : List γ) :
    Gives (fun results => results.length = items.length ∧ ∀ a ∈ results, P a) (items.mapM f) := by
  induction items with
  | nil => exact gives_pure (by simp)
  | cons c rest ih =>
    rw [List.mapM_cons]
    exact (h c).bind fun a ha => ih.bind fun results hresults =>
      gives_pure ⟨congrArg Nat.succ hresults.1, List.forall_mem_cons.2 ⟨ha, hresults.2⟩⟩

theorem gives_leaf (d : Distribution) : Gives Node.DividesSafely (leaf d) :=
  fun _ => .leaf _ _ _

theorem gives_numberRight (op : Operator) {n : Node} {x : Float}
    (hop : op = .divide → (x == 0.0) = false) (hn : n.DividesSafely) :
    Gives Node.DividesSafely (scalar x >>= combinator op n) := by
  intro studio
  by_cases h : op = .divide
  · subst h
    exact .divide _ _ hn (hop rfl)
  · exact .combinator _ h hn (.scalar _ x)

theorem gives_numberLeft (op : Operator) {n : Node} (x : Float) (hop : op ≠ .divide)
    (hn : n.DividesSafely) : Gives Node.DividesSafely (scalar x >>= (combinator op · n)) :=
  fun _ => .combinator _ hop (.scalar _ x) hn

theorem asks_mapM {f : γ → Making α} {bill : γ → List Demand} (h : ∀ c, Asks (bill c) (f c))
    (items : List γ) : Asks (items.flatMap bill) (items.mapM f) := by
  induction items with
  | nil => exact asks_pure []
  | cons c rest ih =>
    rw [List.mapM_cons, List.flatMap_cons]
    exact (h c).bind fun a => ih.map (a :: ·)

/-! ## Two actions -/

/-- Whether two actions, done in studios that are related, leave studios that are related and have
results that are related. -/
def Coupled (K : Studio → Studio → Prop) (R : α → α' → Prop) (x : Making α) (x' : Making α') :
    Prop :=
  ∀ studio studio', K studio studio' →
    K (x studio).2 (x' studio').2 ∧ R (x studio).1 (x' studio').1

theorem coupled_pure (h : R a a') : Coupled K R (pure a) (pure a') := fun _ _ hk => ⟨hk, h⟩

theorem Coupled.bind {k : α → Making β} {k' : α' → Making β'} (h : Coupled K R x x')
    (hk : ∀ a a', R a a' → Coupled K S (k a) (k' a')) : Coupled K S (x >>= k) (x' >>= k') := by
  intro studio studio' hstudio
  obtain ⟨hafter, hresult⟩ := h studio studio' hstudio
  exact hk _ _ hresult _ _ hafter

theorem Coupled.mapM {f : γ → Making α} {f' : γ → Making α'} (h : ∀ c, Coupled K R (f c) (f' c))
    (items : List γ) : Coupled K (List.Forall₂ R) (items.mapM f) (items.mapM f') := by
  induction items with
  | nil => exact coupled_pure .nil
  | cons c rest ih =>
    rw [List.mapM_cons, List.mapM_cons]
    exact (h c).bind fun a a' ha => ih.bind fun results results' hresults =>
      coupled_pure (.cons ha hresults)

/-! ### In one studio -/

/-- Whether two actions leave every studio in the same state, with results that are related. -/
def Alike (R : α → α' → Prop) (x : Making α) (x' : Making α') : Prop :=
  ∀ studio, (x studio).2 = (x' studio).2 ∧ R (x studio).1 (x' studio).1

theorem alike_iff_coupled : Alike R x x' ↔ Coupled Eq R x x' := by
  constructor
  · rintro h studio _ rfl
    exact h studio
  · exact fun h studio => h studio studio rfl

theorem alike_self (x : Making α) : Alike Eq x x := fun _ => ⟨rfl, rfl⟩

theorem alike_pure (h : R a a') : Alike R (pure a) (pure a') :=
  alike_iff_coupled.2 (coupled_pure h)

theorem Alike.bind {k : α → Making β} {k' : α' → Making β'} (h : Alike R x x')
    (hk : ∀ a a', R a a' → Alike S (k a) (k' a')) : Alike S (x >>= k) (x' >>= k') :=
  alike_iff_coupled.2 ((alike_iff_coupled.1 h).bind fun a a' ha =>
    alike_iff_coupled.1 (hk a a' ha))

theorem Alike.mapM {f : γ → Making α} {f' : γ → Making α'} (h : ∀ c, Alike R (f c) (f' c))
    (items : List γ) : Alike (List.Forall₂ R) (items.mapM f) (items.mapM f') :=
  alike_iff_coupled.2 (.mapM (fun c => alike_iff_coupled.1 (h c)) items)

/-- An operator makes a node of its own whatever number it is put on. -/
theorem alike_numberRight (op : Operator) (n : Node) (x x' : Float) :
    Alike (fun _ _ => True) (scalar x >>= combinator op n) (scalar x' >>= combinator op n) :=
  fun _ => ⟨rfl, trivial⟩

theorem alike_numberLeft (op : Operator) (n n' : Node) (x : Float) :
    Alike (fun _ _ => True) (scalar x >>= (combinator op · n))
      (scalar x >>= (combinator op · n')) :=
  fun _ => ⟨rfl, trivial⟩

end Making

end Atelier
