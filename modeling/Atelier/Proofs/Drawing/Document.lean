import Atelier.Drawing.Shape
import Atelier.Proofs.Attempt

/-!
# The values of a drawing

A drawing is gone through in two ways: one checks it, the other writes it. What both should come
across is said here without either of them: the numbers of a form, the channels of its stroke, the
channels of its fill, and then the same for each child in turn (`Shape.document`).

`WorksOut` is how a way through a drawing is compared with such a list. It says that the values of
the list are worked out in this order, and that nothing but the first one that fails ends the work.
-/

namespace Atelier

/-! ## The parts of a form -/

namespace Form

variable {α κ : Type}

/-- The numbers of a form, by the names under which they are written. -/
def named : Form α κ → List (String × α)
  | rect x y width height _ _ => [("x", x), ("y", y), ("width", width), ("height", height)]
  | square x y side _ _ => [("x", x), ("y", y), ("side", side)]
  | ellipse cx cy rx ry _ _ => [("cx", cx), ("cy", cy), ("rx", rx), ("ry", ry)]
  | circle cx cy r _ _ => [("cx", cx), ("cy", cy), ("r", r)]
  | polygon cx cy r sides _ _ => [("cx", cx), ("cy", cy), ("r", r), ("sides", sides)]
  | line x0 y0 x1 y1 _ => [("x0", x0), ("y0", y0), ("x1", x1), ("y1", y1)]
  | group x y width height => [("x", x), ("y", y), ("width", width), ("height", height)]

/-- The numbers of a form in order. -/
def numbers (form : Form α κ) : List α :=
  form.named.map Prod.snd

def stroke? : Form α κ → Option κ
  | rect _ _ _ _ stroke _ | square _ _ _ stroke _ | ellipse _ _ _ _ stroke _
  | circle _ _ _ stroke _ | polygon _ _ _ _ stroke _ | line _ _ _ _ stroke => stroke
  | group .. => none

def fill? : Form α κ → Option κ
  | rect _ _ _ _ _ fill | square _ _ _ _ fill | ellipse _ _ _ _ _ fill
  | circle _ _ _ _ fill | polygon _ _ _ _ _ fill => fill
  | line .. | group .. => none

variable {form : Form Value (Color Value)}

theorem values_eq :
    form.values = form.numbers ++ channels form.stroke? ++ channels form.fill? := by
  cases form <;> simp [values, numbers, named, stroke?, fill?, channels]

/-- A colour that is not set leaves no trace in the fields. -/
theorem fieldsOf_append_none (numbers : List (String × Value))
    (colors : List (String × Option (Color Value))) (name : String) :
    fieldsOf numbers (colors ++ [(name, none)]) = fieldsOf numbers colors := by
  rw [fieldsOf, fieldsOf]
  refine bind_congr fun numberFields => ?_
  rw [List.mapM_append, bind_assoc]
  refine bind_congr fun colorFields => ?_
  simp [colorField, bind, Except.bind, pure, Except.pure]

/-- Every form is written by the same rule: a colour that it cannot carry is one that is not
set. -/
theorem fields_eq :
    form.fields = fieldsOf form.named [("stroke", form.stroke?), ("fill", form.fill?)] := by
  cases form with
  | rect | square | ellipse | circle | polygon => rfl
  | line x0 y0 x1 y1 stroke => exact (fieldsOf_append_none _ [("stroke", stroke)] "fill").symm
  | group x y width height =>
    have hfill := fieldsOf_append_none (named (group x y width height : Form Value (Color Value)))
      [("stroke", none)] "fill"
    exact ((fieldsOf_append_none _ [] "stroke").symm.trans hfill.symm)

end Form

/-! ## Working out values in order -/

section WorksOut

variable {α β γ : Type} {action : Except DivisionByZero α} {next : α → Except DivisionByZero β}
  {f : α → Except DivisionByZero β} {values later : List Value} {cause : DivisionByZero}

/-- Works out some values in order, for their errors only. -/
def workThrough : List Value → Except DivisionByZero Unit
  | [] => .ok ()
  | v :: rest =>
    match v.resolve with
    | .ok _ => workThrough rest
    | .error cause => .error cause

/-- Whether an action works out some values in order and ends at the first one that fails, while
nothing else in it can fail. -/
def WorksOut (action : Except DivisionByZero α) (values : List Value) : Prop :=
  discard action = workThrough values

theorem workThrough_append (values later : List Value) :
    workThrough (values ++ later) = (do
      workThrough values
      workThrough later) := by
  induction values with
  | nil => rfl
  | cons v rest ih =>
    rw [List.cons_append, workThrough, workThrough, ih]
    cases v.resolve with
    | error e => rfl
    | ok x => rfl

theorem worksOut_pure (a : α) : WorksOut (pure a) [] := rfl

theorem worksOut_resolve (v : Value) : WorksOut v.resolve [v] := by
  rw [WorksOut, workThrough]
  cases v.resolve with
  | error e => rfl
  | ok x => rfl

theorem WorksOut.bind (h : WorksOut action values) (hnext : ∀ a, WorksOut (next a) later) :
    WorksOut (action >>= next) (values ++ later) := by
  rw [WorksOut, workThrough_append, ← h]
  cases action with
  | error e => rfl
  | ok a => exact hnext a

theorem WorksOut.map (g : α → β) (h : WorksOut action values) : WorksOut (g <$> action) values := by
  rw [WorksOut, ← h]
  cases action with
  | error e => rfl
  | ok a => rfl

theorem worksOut_mapM {given : α → List Value} (h : ∀ a, WorksOut (f a) (given a))
    (items : List α) : WorksOut (items.mapM f) (items.flatMap given) := by
  induction items with
  | nil => exact worksOut_pure []
  | cons a rest ih =>
    rw [List.mapM_cons, List.flatMap_cons]
    apply (h a).bind
    intro b
    rw [bind_pure_comp]
    exact ih.map (b :: ·)

/-- An action that only checks is the work on its values itself. -/
theorem WorksOut.eq_workThrough {check : Except DivisionByZero Unit} (h : WorksOut check values) :
    check = workThrough values := by
  rw [← h]
  cases check with
  | error e => rfl
  | ok _ => rfl

/-- Going through a list for its errors is working out its values. -/
theorem worksOut_forM (values : List Value) :
    WorksOut (values.forM fun v => discard v.resolve) values := by
  induction values with
  | nil => exact worksOut_pure ()
  | cons v rest ih =>
    have hfirst : WorksOut (discard v.resolve) [v] := (worksOut_resolve v).map fun _ => ()
    exact hfirst.bind fun _ => ih

/-! ### Where the work ends -/

/-- Whether a value has a number. -/
def Value.Resolves (v : Value) : Prop :=
  ∃ x, v.resolve = .ok x

/-- Whether a cause is that of the first value in a list that fails. -/
def FailsFirst (values : List Value) (cause : DivisionByZero) : Prop :=
  ∃ before v after, values = before ++ v :: after ∧ (∀ w ∈ before, w.Resolves) ∧
    v.resolve = .error cause

theorem WorksOut.ok_iff (h : WorksOut action values) :
    (∃ a, action = .ok a) ↔ ∀ v ∈ values, v.Resolves := by
  rw [← discard_eq_ok_iff, h]
  clear h
  induction values with
  | nil => simp [workThrough]
  | cons v rest ih =>
    rw [workThrough, List.forall_mem_cons, ← ih]
    cases hv : v.resolve with
    | error e => simp [Value.Resolves, hv]
    | ok x => simp [Value.Resolves, hv]

/-- The first failure of a list is that of its first value, or comes behind it. -/
theorem failsFirst_cons {v : Value} {rest : List Value} :
    FailsFirst (v :: rest) cause ↔
      v.resolve = .error cause ∨ v.Resolves ∧ FailsFirst rest cause := by
  constructor
  · rintro ⟨before, w, after, hsplit, hbefore, hw⟩
    cases before with
    | nil =>
      obtain ⟨rfl, rfl⟩ := List.cons.inj hsplit
      exact .inl hw
    | cons u before =>
      obtain ⟨rfl, rfl⟩ := List.cons.inj hsplit
      rw [List.forall_mem_cons] at hbefore
      exact .inr ⟨hbefore.1, before, w, after, rfl, hbefore.2, hw⟩
  · intro h
    cases h with
    | inl hv => exact ⟨[], v, rest, rfl, by simp, hv⟩
    | inr h =>
      obtain ⟨hv, before, w, after, rfl, hbefore, hw⟩ := h
      exact ⟨v :: before, w, after, rfl, List.forall_mem_cons.2 ⟨hv, hbefore⟩, hw⟩

theorem WorksOut.error_iff (h : WorksOut action values) :
    action = .error cause ↔ FailsFirst values cause := by
  rw [← discard_eq_error_iff, h]
  clear h
  induction values with
  | nil => simp [workThrough, FailsFirst]
  | cons v rest ih =>
    rw [workThrough, failsFirst_cons, ← ih]
    cases hv : v.resolve with
    | error e => simp [Value.Resolves, hv]
    | ok x => simp [Value.Resolves, hv]

end WorksOut

/-! ## The values of a tree -/

namespace Shape

mutual

/-- The values of a tree of shapes in document order. -/
def document : Shape → List Value
  | ⟨form, items, _⟩ =>
    form.numbers ++ Form.channels form.stroke? ++ Form.channels form.fill? ++ documentOfItems items

/-- The values of a list of trees, one tree after the other. -/
def documentOfItems : List Shape → List Value
  | [] => []
  | item :: rest => item.document ++ documentOfItems rest

end

end Shape

end Atelier
