import Atelier.Proofs.Session.Account
import Mathlib.Data.List.Forall2

/-!
# Draws from one seed

A seed fixes the stream of a generator, and the family of a draw fixes how much of the stream the
draw takes. So the draws that follow a seed are known from their distributions alone
(`Random.Generator.deal`). Whatever was done before the seed, and whatever is done between the
draws, has no part in them (`Ledger.DrawingRun.draws_eq`).

Two runs that draw from the same families after the same seed therefore stay in step, although a
normal number takes no fixed number of words from the stream.
-/

namespace Atelier

/-! ## The draws of a generator -/

namespace Distribution

/-- How a family takes a number from a generator. -/
def Family.rule : Family → Random.Generator → Float × Random.Generator
  | uniform => Random.Generator.unit
  | normal => Random.Ziggurat.standardNormal

/-- A sample is placed after it was drawn: the generator sees the family only. -/
theorem sample_eq (d : Distribution) (s : Random.Source) :
    d.sample s =
      (d.place (d.family.rule s.generator).1, ⟨(d.family.rule s.generator).2, s.draws + 1⟩) := by
  cases d <;> rfl

end Distribution

open Atelier.Distribution (Family)

/-- A draw as it was taken: what was asked for, the number that it gave, and the generator as the
draw left it. -/
structure Draw where
  distribution : Distribution
  value : Float
  generator : Random.Generator

namespace Draw

def family (draw : Draw) : Family :=
  draw.distribution.family

/-- Whether two draws leave the same generator, and give the same number if they were asked for the
same. -/
structure InStep (draw draw' : Draw) : Prop where
  generator : draw.generator = draw'.generator
  value : draw.distribution = draw'.distribution → draw.value = draw'.value

end Draw

namespace Random.Generator

variable (g : Generator) (d : Distribution) (ds ds' : List Distribution)

/-- The draws of some distributions, one after the other and with nothing in between. -/
def deal : Generator → List Distribution → List Draw
  | _, [] => []
  | g, d :: rest =>
    ⟨d, d.place (d.family.rule g).1, (d.family.rule g).2⟩ :: deal (d.family.rule g).2 rest

/-- The generator after draws from some families. -/
def advance (families : List Family) : Generator :=
  families.foldl (fun g family => (family.rule g).2) g

theorem advance_concat (families : List Family) (family : Family) :
    g.advance (families ++ [family]) = (family.rule (g.advance families)).2 := by
  rw [advance, List.foldl_append]
  rfl

/-- One more draw is taken where the others ended. -/
theorem deal_concat :
    g.deal (ds ++ [d]) = g.deal ds ++ (g.advance (ds.map Distribution.family)).deal [d] := by
  induction ds generalizing g with
  | nil => rfl
  | cons e ds ih =>
    have hrest := ih (e.family.rule g).2
    rw [List.cons_append, deal, deal, hrest]
    rfl

/-- **Draws from the same families stay in step**, whatever their parameters are. -/
theorem inStep_deal (h : ds.map Distribution.family = ds'.map Distribution.family) :
    List.Forall₂ Draw.InStep (g.deal ds) (g.deal ds') := by
  induction ds generalizing g ds' with
  | nil =>
    obtain rfl : ds' = [] := by simpa using h.symm
    exact .nil
  | cons d ds ih =>
    cases ds' with
    | nil => simp at h
    | cons d' ds' =>
      obtain ⟨hfamily, hrest⟩ := List.cons.inj h
      rw [deal, deal, ← hfamily]
      refine .cons ⟨rfl, ?_⟩ (ih _ _ hrest)
      rintro (rfl : d = d')
      rfl

end Random.Generator

/-! ## Runs of library calls that draw -/

namespace Ledger

variable {ledger ledger' ledger'' : Ledger} {draw : Draw} {draws : List Draw}

/-- One call that draws. A leaf gives the number that it holds from then on, a sample the number
that it answers. -/
inductive Draws (ledger : Ledger) : Draw → Ledger → Prop
  | leaf (d : Distribution) {x : Float} (hx : (Making.leaf d ledger.studio).1.cached = some x) :
      Draws ledger ⟨d, x, (ledger.buildLeaf d).studio.source.generator⟩ (ledger.buildLeaf d)
  | sample (d : Distribution) :
      Draws ledger
        ⟨d, (Making.sample d ledger.studio).1, (Making.sample d ledger.studio).2.source.generator⟩
        { ledger with studio := (Making.sample d ledger.studio).2 }

/-- Any number of calls that set no seed, with the draws among them in order. -/
inductive DrawingRun (ledger : Ledger) : List Draw → Ledger → Prop
  | refl : DrawingRun ledger [] ledger
  | quiet {draws : List Draw} {ledger' ledger'' : Ledger} (hrun : DrawingRun ledger draws ledger')
      (hcall : Quiet ledger' ledger'') : DrawingRun ledger draws ledger''
  | draw {draws : List Draw} {draw : Draw} {ledger' ledger'' : Ledger}
      (hrun : DrawingRun ledger draws ledger') (hcall : Draws ledger' draw ledger'') :
      DrawingRun ledger (draws ++ [draw]) ledger''

theorem Draws.billed (hcall : Draws ledger draw ledger') :
    ∃ demand, Billed ledger (some demand) ledger' := by
  cases hcall with
  | leaf d hx => exact ⟨_, .leaf d⟩
  | sample d => exact ⟨_, .sample d⟩

theorem DrawingRun.run (h : ledger.Sound) (hrun : DrawingRun ledger draws ledger') :
    Run ledger ledger' := by
  induction hrun with
  | refl => exact .refl
  | quiet _ hcall ih => exact ih.trans (hcall.run (h.run ih).1)
  | draw _ hcall ih =>
    obtain ⟨demand, hbilled⟩ := hcall.billed
    exact ih.trans (hbilled.run (h.run ih).1)

/-- A draw is the next one of the generator. -/
theorem Draws.eq (hcall : Draws ledger draw ledger') :
    [draw] = ledger.studio.source.generator.deal [draw.distribution] ∧
      ledger'.studio.source.generator = draw.generator := by
  cases hcall with
  | leaf d hx =>
    have hvalue : (d.sample ledger.studio.source).1 = _ := Option.some.inj hx
    have hsource : (ledger.buildLeaf d).studio.source = (d.sample ledger.studio.source).2 := rfl
    rw [d.sample_eq] at hvalue hsource
    rw [← hvalue, hsource]
    exact ⟨rfl, rfl⟩
  | sample d =>
    have hsample : Making.sample d ledger.studio =
        ((d.sample ledger.studio.source).1, ⟨(d.sample ledger.studio.source).2, _⟩) := rfl
    rw [d.sample_eq] at hsample
    rw [hsample]
    exact ⟨rfl, rfl⟩

/-- **The draws of a run are those of the generator it starts with**, and so is the generator it
ends with: only the families of the draws have a part in it. -/
theorem DrawingRun.draws_eq (h : ledger.Sound) (hrun : DrawingRun ledger draws ledger') :
    draws = ledger.studio.source.generator.deal (draws.map Draw.distribution) ∧
      ledger'.studio.source.generator =
        ledger.studio.source.generator.advance (draws.map Draw.family) := by
  induction hrun with
  | refl => exact ⟨rfl, rfl⟩
  | quiet hrun hcall ih =>
    rw [hcall.source_eq (h.run (hrun.run h)).1]
    exact ih
  | @draw draws draw ledger' ledger'' hrun hcall ih =>
    obtain ⟨hdraws, hgenerator⟩ := ih
    obtain ⟨hdraw, hnext⟩ := hcall.eq
    have hfamilies : (draws.map Draw.distribution).map Distribution.family =
        draws.map Draw.family := List.map_map
    rw [hgenerator] at hdraw
    constructor
    · rw [List.map_append, List.map_singleton, Random.Generator.deal_concat, hfamilies, ← hdraw,
        ← hdraws]
    · rw [hnext, List.map_append, List.map_singleton, Random.Generator.advance_concat]
      exact congrArg Draw.generator (List.singleton_inj.1 hdraw)

end Ledger

/-! ## Sessions -/

/-- The family that a demand draws from, if it draws. -/
def Demand.family? : Demand → Option Family
  | seed _ => none
  | leaf d | sample d => some d.family

/-- The generator after demands that all draw is the one after their families. -/
theorem Random.Source.generator_after {bill : List Demand} {families : List Family}
    (source : Random.Source) (h : bill.mapM Demand.family? = some families) :
    (source.after bill).generator = source.generator.advance families := by
  induction bill generalizing source families with
  | nil =>
    obtain rfl : [] = families := Option.some.inj h
    rfl
  | cons demand rest ih =>
    rw [List.mapM_cons] at h
    obtain ⟨family, hfamily, h⟩ := Option.bind_eq_some_iff.1 h
    obtain ⟨later, hlater, h⟩ := Option.bind_eq_some_iff.1 h
    obtain rfl : family :: later = families := Option.some.inj h
    have hserve : (demand.serve source).generator = (family.rule source.generator).2 := by
      cases demand with
      | seed n => simp [Demand.family?] at hfamily
      | leaf d | sample d =>
        obtain rfl : d.family = family := Option.some.inj hfamily
        rw [Demand.serve, d.sample_eq]
    have hrest := ih (demand.serve source) hlater
    rw [hserve] at hrest
    exact hrest

/-- The generator after a seed and steps that only draw is told by the families they draw from. -/
theorem Step.generator_runAll_seed {seed : UInt64} {s : Session} {steps : List Step}
    {families : List Family}
    (h : (billAll steps (runAll [.seed seed] s).2).mapM Demand.family? = some families) :
    (runAll (.seed seed :: steps) s).2.studio.source.generator =
      (Random.Generator.ofSeed seed).advance families := by
  have hsource := source_runAll steps (runAll [.seed seed] s).2
  have hgenerator := Random.Source.generator_after (runAll [.seed seed] s).2.studio.source h
  rw [← hsource] at hgenerator
  exact hgenerator

/-- **Runs that draw after one seed stay in step.** Whatever two runs did before they set the same
seed, and whatever else they do in between: as long as each draw of one is from the same family as
that of the other, be it for a leaf or as a sample and with whatever parameters, both generators are
the same after every draw, and equal distributions give equal numbers. So it is with sessions, whose
draws can be told from their steps. -/
theorem draws_of_seed_in_step :
    (∀ (seed : UInt64) (studio studio' : Studio) (before before' after after' : Ledger)
      (draws draws' : List Draw),
      Ledger.Run (.opening studio) before → Ledger.Run (.opening studio') before' →
      Ledger.DrawingRun { before with studio.source := before.studio.source.reseed seed }
        draws after →
      Ledger.DrawingRun { before' with studio.source := before'.studio.source.reseed seed }
        draws' after' →
      draws.map Draw.family = draws'.map Draw.family →
      List.Forall₂ Draw.InStep draws draws' ∧
        after.studio.source.generator = after'.studio.source.generator) ∧
    ∀ (seed : UInt64) (s s' : Session) (steps steps' : List Step) (families : List Family),
      (Step.billAll steps (Step.runAll [.seed seed] s).2).mapM Demand.family? = some families →
      (Step.billAll steps' (Step.runAll [.seed seed] s').2).mapM Demand.family? = some families →
      (Step.runAll (.seed seed :: steps) s).2.studio.source.generator =
        (Step.runAll (.seed seed :: steps') s').2.studio.source.generator := by
  refine ⟨?_, fun seed s s' steps steps' families h h' =>
    (Step.generator_runAll_seed h).trans (Step.generator_runAll_seed h').symm⟩
  intro seed studio studio' before before' after after' draws draws' hbefore hbefore' hrun hrun'
    hfamilies
  have hsound := ((Ledger.sound_opening studio).run hbefore).1.call (.seed before seed)
  have hsound' := ((Ledger.sound_opening studio').run hbefore').1.call (.seed before' seed)
  obtain ⟨hdraws, hafter⟩ := hrun.draws_eq hsound
  obtain ⟨hdraws', hafter'⟩ := hrun'.draws_eq hsound'
  constructor
  · rw [hdraws, hdraws']
    exact Random.Generator.inStep_deal _ _ _ (by rwa [List.map_map, List.map_map])
  · rw [hafter, hafter', hfamilies]
    rfl

/-- A leaf that is looked at in between, and two samples behind another history; and two sessions
that do as much by steps. -/
theorem draws_of_seed_in_step_mixed :
    let d := Distribution.normalInt 4.5 2
    let before := Ledger.opening (Session.ofSeed 1).studio
    let before' := (Ledger.opening (Session.ofSeed 2).studio).buildLeaf d
    let seeded := { before with studio.source := before.studio.source.reseed 7 }
    let seeded' := { before' with studio.source := before'.studio.source.reseed 7 }
    let n := (Making.leaf d seeded.studio).1
    let looked := (Ledger.lookAt [n, n] (seeded.buildLeaf d)).2
    let sample := Making.sample (.uniformInt 0 9) looked.studio
    let sample' := Making.sample d seeded'.studio
    let sample'' := Making.sample (.uniformFloat 1 2) sample'.2
    let steps : List Step := [.leaf d, .draws, .sample (.uniformInt 0 9) 1]
    let steps' : List Step := [.sample d 1, .sample (.uniformFloat 1 2) 1]
    (∃ draws draws',
      Ledger.DrawingRun seeded draws { looked with studio := sample.2 } ∧
      Ledger.DrawingRun seeded' draws' { seeded' with studio := sample''.2 } ∧
      draws.map Draw.family = [.normal, .uniform] ∧ draws'.map Draw.family = [.normal, .uniform] ∧
      List.Forall₂ Draw.InStep draws draws') ∧
    (Step.runAll (.seed 7 :: steps) (.ofSeed 1)).2.studio.source.generator =
      (Step.runAll (.seed 7 :: steps') (.ofSeed 2)).2.studio.source.generator := by
  intro d before before' seeded seeded' n looked sample sample' sample'' steps steps'
  have hn : (n, Formula.draw before.studio.made) ∈ (seeded.buildLeaf d).built := List.mem_cons_self
  have hlook : Ledger.Quiet (seeded.buildLeaf d) looked :=
    .look (by simpa using ⟨_, .node hn⟩)
  have hvalue : n.cached = some (d.sample seeded.studio.source).1 := rfl
  have hrun : Ledger.DrawingRun seeded _ { looked with studio := sample.2 } :=
    .draw (.quiet (.draw .refl (.leaf d hvalue)) hlook) (.sample _)
  have hrun' : Ledger.DrawingRun seeded' _ { seeded' with studio := sample''.2 } :=
    .draw (.draw .refl (.sample d)) (.sample _)
  have hbefore' : Ledger.Run (.opening (Session.ofSeed 2).studio) before' := .single (.leaf _ d)
  refine ⟨⟨_, _, hrun, hrun', rfl, rfl, ?_⟩,
    draws_of_seed_in_step.2 7 (.ofSeed 1) (.ofSeed 2) steps steps' [.normal, .uniform] rfl rfl⟩
  refine (draws_of_seed_in_step.1 7 _ _ before before' _ _ _ _ .refl hbefore' hrun hrun' ?_).1
  -- Each list is compared with the families: between the lists Lean would compare the numbers.
  exact Eq.trans (b := [Family.normal, Family.uniform]) rfl rfl

end Atelier
