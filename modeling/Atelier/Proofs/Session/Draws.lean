import Atelier.Proofs.Session.Evaluation

/-!
# Every resolve sees the draws made at construction

Each step of a session is a run of library calls, so a whole session is one, and going on with it is
going on with that run. Therefore each node that a session ever held has, then and later, the value
of the formula it was built from, by the samples that were drawn when its leaves were made.
-/

namespace Atelier

open Acting Ledger

namespace Step

variable {given : List Node} {v : Value}

theorem follows_described (v : Value) : Follows given (described v) noNodes :=
  follows_draws.bind fun _ => follows_pure (List.nil_subset _)

theorem follows_keep (name : String) (hv : v.nodes ⊆ given) :
    Follows given (keep name v) noNodes := by
  rw [keep]
  refine Follows.bind (follows_modify (fun _ => rfl) fun s n hn => ?_) fun _ => follows_described v
  simp only [Session.nodes, List.flatMap_cons, List.mem_append] at hn ⊢
  grind

theorem follows_update (name : String) {s : Shape} (hs : s.nodes ⊆ given) :
    Follows given (update name s) noNodes := by
  refine follows_modify (fun _ => rfl) fun session n hn => ?_
  simp only [Session.nodes, List.flatMap_cons, List.mem_append] at hn ⊢
  grind

theorem follows_shape (name : String) : Follows given (named Session.shapes name) Shape.nodes := by
  refine follows_named name fun s e he n hn => ?_
  rw [Session.nodes]
  exact List.mem_append_right _ (List.mem_flatMap.2 ⟨e, he, hn⟩)

/-- An answer that is worked out from what was made. -/
theorem Follows.answer {α : Type} {x : Acting α} {nodes : α → List Node} {answer : α → Answer}
    (h : Follows given x nodes) : Follows given (do return answer (← x)) noNodes :=
  h.bind fun _ => follows_pure (List.nil_subset _)

/-- **Each step is a run of library calls.** -/
theorem follows_run (step : Step) : Follows [] step.run noNodes := by
  cases step with
  | seed n => exact (follows_seed n).bind fun _ => Follows.answer follows_draws
  | draws => exact Follows.answer follows_draws
  | define name e => exact e.follows_eval.bind fun v => follows_keep name (by simp)
  | child name e side =>
    refine e.follows_evalNode.bind fun n => ?_
    cases hchild : n.child? side with
    | none => exact follows_throw _
    | some c => exact (follows_keep name (by simp [Value.nodes])).child (by simp) hchild
  | describe e => exact e.follows_eval.bind fun v => follows_described v
  | lift e => exact e.follows_evalNode.bind fun n => follows_described (.node n)
  | resolve e => exact Follows.answer e.follows_eval
  | resolveNode e => exact Follows.answer e.follows_evalNode
  | display e => exact Follows.answer e.follows_evalNode
  | same a b => exact a.follows_evalNode.bind fun n => Follows.answer b.follows_evalNode
  | valueJson e => exact Follows.answer e.follows_eval
  | apply op l r => exact follows_pure (List.nil_subset _)
  | combine op l r =>
    exact l.follows_evalNode.bind fun n => r.follows_evalNode.bind fun m =>
      Follows.answer (follows_combinator op (by simp) (by simp))
  | sample d times =>
    exact (follows_samples _ d times).bind fun xs => Follows.answer follows_draws
  | leaf d => exact (follows_leaf _ d).bind fun n => Follows.answer follows_draws
  | defineColor name c =>
    refine c.follows_eval.bind fun c => Follows.bind (follows_modify (fun _ => rfl)
      fun s n hn => ?_) fun _ => Follows.answer follows_draws
    simp only [Session.nodes, List.flatMap_cons, List.mem_append] at hn ⊢
    grind
  | css c => exact Follows.answer c.follows_eval
  | channels c => exact Follows.answer c.follows_eval
  | colorJson c => exact Follows.answer c.follows_eval
  | defineShape name s =>
    refine s.follows_eval.bind fun s => (follows_update name ?_).bind fun _ =>
      Follows.answer follows_draws
    simp
  | addItem name item =>
    refine item.follows_eval.bind fun item => (follows_shape name).bind fun s =>
      (follows_update name ?_).bind fun _ => follows_pure (List.nil_subset _)
    rw [Shape.nodes_add]
    exact List.append_subset.2 ⟨by simp, by simp⟩
  | qualify name q =>
    refine (follows_shape name).bind fun s =>
      (follows_update name ?_).bind fun _ => follows_pure (List.nil_subset _)
    rw [Shape.nodes_qualify]
    simp
  | setField name field e =>
    refine e.follows_eval.bind fun v => (follows_shape name).bind fun s => ?_
    cases hset : s.form.set? field v with
    | none => exact follows_throw _
    | some form =>
      refine (follows_update name fun n hn => ?_).bind fun _ => Follows.answer follows_draws
      have hform := @(Form.nodes_set? hset)
      rw [Shape.nodes_eq] at hn
      rw [Shape.nodes_eq s]
      grind
  | info name => exact Follows.answer (follows_shape name)
  | resolveAll name => exact Follows.answer (follows_shape name)
  | json name form => exact Follows.answer (follows_shape name)
  | toolJson name form =>
    refine (follows_shape name).bind fun s => ?_
    cases form.write s with
    | ok text => exact follows_pure (List.nil_subset _)
    | error e => exact follows_pure (List.nil_subset _)
  | toolSerialize name =>
    refine (follows_shape name).bind fun s => ?_
    cases s.json with
    | ok tree => exact follows_pure (List.nil_subset _)
    | error cause => exact follows_pure (List.nil_subset _)

/-- **A session is a run of library calls**, whatever its steps are and whichever of them are
faults. -/
theorem exists_run_runAll {ledger : Ledger} {s : Session} (steps : List Step)
    (hsound : ledger.Sound) (hgoes : ledger.GoesWith s) :
    ∃ ledger', Run ledger ledger' ∧ ledger'.GoesWith (runAll steps s).2 := by
  induction steps generalizing ledger s with
  | nil => exact ⟨ledger, .refl, hgoes⟩
  | cons step rest ih =>
    obtain ⟨ledger₁, hrun₁, hgoes₁, -⟩ :=
      step.follows_run ledger s hsound hgoes (knows_nil ledger)
    obtain ⟨ledger', hrun', hgoes'⟩ := ih (hsound.run hrun₁).1 hgoes₁
    exact ⟨ledger', hrun₁.trans hrun', hgoes'⟩

end Step

/-- **Every resolve sees the draws made at construction.** Whatever library calls are made, each
node has, from the call that built it on, the value of the formula it was built from, with the one
sample that was drawn for each leaf when the leaf was made. And all that a session does is done by
such calls. -/
theorem resolve_sees_draws :
    (∀ studio ledger ledger', Run (opening studio) ledger → Run ledger ledger' →
      Lasting ledger ledger') ∧
    ∀ (seed : UInt64) (steps later : List Step),
      let s := (Step.runAll steps (Session.ofSeed seed)).2
      ∃ ledger ledger', Run (opening (Session.ofSeed seed).studio) ledger ∧ ledger.GoesWith s ∧
        Run ledger ledger' ∧ ledger'.GoesWith (Step.runAll later s).2 := by
  refine ⟨fun studio ledger ledger' hrun hlater => ?_, fun seed steps later => ?_⟩
  · exact ((sound_opening studio).run hrun).1.lasting hlater
  · have hsound := sound_opening (Session.ofSeed seed).studio
    have hgoes : (opening (Session.ofSeed seed).studio).GoesWith (Session.ofSeed seed) :=
      ⟨rfl, knows_nil _⟩
    obtain ⟨ledger, hrun, hgoes₁⟩ := Step.exists_run_runAll steps hsound hgoes
    obtain ⟨ledger', hlater, hgoes₂⟩ := Step.exists_run_runAll later (hsound.run hrun).1 hgoes₁
    exact ⟨ledger, ledger', hrun, hgoes₁, hlater, hgoes₂⟩

/-- A leaf, and the stream of another seed started after it was made. -/
theorem resolve_sees_draws_reseeded :
    let ledger := (opening (Session.ofSeed 7).studio).buildLeaf (.normalInt 4.5 2)
    Lasting ledger { ledger with studio.source := ledger.studio.source.reseed 8 } :=
  resolve_sees_draws.1 _ _ _ (.single (.leaf _ _)) (.single (.seed _ 8))

end Atelier
