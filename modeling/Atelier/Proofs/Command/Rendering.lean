import Atelier.Proofs.Command.Effect
import Atelier.Proofs.Command.Order
import Atelier.Proofs.Scene.Seeded

/-!
# Command lines for a rendering

A frame of a scene can be asked for in many ways: the switches stand in any order, and each has its
spellings (`RenderLine`). What is asked for is the same (`RenderLine.parse_eq`). A seed on the
command line stands for itself, whatever the environment holds; without one the environment is
asked, and must then hold a number or nothing.

So it makes no difference where a seed comes from, and what is printed is what the library draws
after that seed (`render_of_seed`).
-/

namespace Atelier.Command

/-! ## Numbers -/

/-- A number starts with no dash. -/
theorem read_eq_operand_of_number {text : String} {n : UInt64} (h : number? text = some n)
    (switches : List Switch) : text ≠ "--" ∧ read switches text = .operand := by
  have hdash : ∀ rest, text.toList ≠ '-' :: rest := by
    intro rest htext
    simp [number?, htext, Char.isDigit] at h
  constructor
  · rintro rfl
    exact hdash ['-'] rfl
  · rw [read]
    split
    next rest htext => exact absurd htext (hdash _)
    next letter rest _ htext => exact absurd htext (hdash _)
    next => rfl

/-- A number that is written in digits is read as itself. -/
theorem number?_repr (n : UInt64) : number? n.toNat.repr = some n := by
  have hdigits : n.toNat.repr.toList = Nat.toDigits 10 n.toNat := by
    simp [Nat.repr]
  have hall : (Nat.toDigits 10 n.toNat).all Char.isDigit :=
    List.all_eq_true.2 fun c hc => Nat.isDigit_of_mem_toDigits (by decide) (by decide) hc
  have hread : Nat.ofDigitChars 10 (Nat.toDigits 10 n.toNat) 0 = n.toNat :=
    Nat.ofDigitChars_ten_toDigits
  rw [number?, hdigits]
  cases hlist : Nat.toDigits 10 n.toNat with
  | nil => exact absurd hlist Nat.toDigits_ne_nil
  | cons c rest =>
    rw [hlist] at hall hread
    rw [Nat.ofDigitChars] at hread
    have hplus : c ≠ '+' := by
      rintro rfl
      simp [Char.isDigit] at hall
    have hlt : n.toNat < Nat.pow 2 64 := n.toNat_lt
    split
    next h => exact absurd (List.cons.inj h).1 hplus
    next =>
      rw [if_pos ⟨nofun, hall⟩]
      simp only [hread, if_pos hlt, UInt64.ofNat_toNat]

/-! ## Lines -/

def seedSwitch : Switch := ⟨"seed", none, some .number⟩

def tickSwitch : Switch := ⟨"tick", none, some .number⟩

def prettySwitch : Switch := ⟨"pretty", none, none⟩

/-- A switch with a value, if there is one. -/
def Piece.given (s : Switch) (value : Option String) : List Piece :=
  value.toList.map fun text => .switch s (some text)

/-- A switch without a value, if it is set. -/
def Piece.set (s : Switch) (on : Bool) : List Piece :=
  if on then [.switch s none] else []

/-- What has to be on a command line for a frame of a scene. -/
def framePieces (scene : String) (seed tick : Option String) (pretty loud : Bool) : List Piece :=
  Piece.given seedSwitch seed ++ Piece.given tickSwitch tick ++ Piece.set prettySwitch pretty ++
    Piece.set verbose loud ++ [.operand scene]

/-- A command line for a frame of a scene, with a seed or without. The switches may stand in any
order in front of the scene and behind it, each in any of its spellings. A tick that is not given is
zero. -/
inductive RenderLine (scene : String) (seed : Option UInt64) (tick : UInt64) (pretty : Bool) :
    List String → Prop
  | intro {lead arguments : List String} {pieces : List Piece} {seedText tickText : Option String}
      {loud : Bool} (hlead : lead = [] ∨ lead = ["--verbose"])
      (hreads : Reads renderInputs.switches arguments pieces)
      (hpieces : pieces.Perm (framePieces scene seedText tickText pretty loud))
      (hseed : seedText.map number? = seed.map some)
      (htick : tickText.elim (some 0) number? = some tick) :
      RenderLine scene seed tick pretty (lead ++ "render" :: arguments)

section Line

variable {scene text : String} {seedText tickText seedVariable : Option String}
  {seed : Option UInt64} {n tick : UInt64} {pretty loud : Bool} {arguments : List String}
  {pieces : List Piece}

/-! ### What is found -/

theorem fits_given {s : Switch} {value : Option String} (hs : s.value = some .number)
    (hvalue : ∀ text ∈ value, (number? text).isSome) :
    ∀ piece ∈ Piece.given s value, piece.Fits := by
  intro piece hpiece
  obtain ⟨text, htext, rfl⟩ := List.mem_map.1 hpiece
  rw [Piece.Fits, hs]
  exact .some (hvalue text (Option.mem_toList.1 htext))

theorem fits_set {s : Switch} (on : Bool) (hs : s.value = none) :
    ∀ piece ∈ Piece.set s on, piece.Fits := by
  intro piece hpiece
  obtain ⟨-, hpiece⟩ := List.mem_ite_nil_right.1 hpiece
  rw [List.mem_singleton.1 hpiece, Piece.Fits, hs]
  exact .none

theorem fits_framePieces (hseed : ∀ text ∈ seedText, (number? text).isSome)
    (htick : ∀ text ∈ tickText, (number? text).isSome) :
    ∀ piece ∈ framePieces scene seedText tickText pretty loud, piece.Fits := by
  simp only [framePieces, List.forall_mem_append, List.forall_mem_singleton]
  exact ⟨⟨⟨⟨fits_given rfl hseed, fits_given rfl htick⟩, fits_set _ rfl⟩, fits_set _ rfl⟩, trivial⟩

/-- What is found where the switches stand in the usual order. -/
theorem followedBy_framePieces (scene : String) (seed tick : Option String) (pretty loud : Bool) :
    let found := Found.followedBy ⟨[], []⟩ (framePieces scene seed tick pretty loud)
    (found.switches.map Prod.fst).Nodup ∧ found.operands = [scene] ∧
      found.value? "seed" = seed ∧ found.value? "tick" = tick ∧ found.has "pretty" = pretty := by
  cases seed <;> cases tick <;> cases pretty <;> cases loud <;>
    exact ⟨by simp [Found.followedBy, framePieces, Piece.given, Piece.set, Piece.switch?,
      List.filterMap_cons, seedSwitch, tickSwitch, prettySwitch, verbose], rfl, rfl, rfl, rfl⟩

/-- **Switches are found in any order.** -/
theorem scan_of_perm (hreads : Reads renderInputs.switches arguments pieces)
    (hpieces : pieces.Perm (framePieces scene seedText tickText pretty loud))
    (hseed : ∀ text ∈ seedText, (number? text).isSome)
    (htick : ∀ text ∈ tickText, (number? text).isSome) :
    ∃ found, scan renderInputs arguments = .ok found ∧ found.operands = [scene] ∧
      found.value? "seed" = seedText ∧ found.value? "tick" = tickText ∧
      found.has "pretty" = pretty := by
  obtain ⟨hnodup, hoperands, hvalues⟩ :=
    followedBy_framePieces scene seedText tickText pretty loud
  obtain ⟨hswitches, hoperand⟩ := Found.followedBy_perm ⟨[], []⟩ hpieces
  rw [hoperands, List.perm_singleton] at hoperand
  have hnodup' := (hswitches.map Prod.fst).nodup_iff.2 hnodup
  have hright : (Found.followedBy ⟨[], []⟩ pieces).Right renderInputs.operands := by
    refine ⟨hnodup', fun i text hi => ?_⟩
    rw [hoperand] at hi
    cases i with
    | zero => exact ⟨.text, rfl, rfl⟩
    | succ i => cases hi
  refine ⟨_, scan_eq_ok_iff.2 ⟨pieces, hreads, ?_, rfl, hright⟩, hoperand, ?_⟩
  · exact fun piece hpiece => fits_framePieces hseed htick piece (hpieces.subset hpiece)
  · rw [Found.value?_eq_of_perm hnodup' hswitches, Found.value?_eq_of_perm hnodup' hswitches,
      Found.has_eq_of_perm hswitches]
    exact hvalues

/-! ### What is asked for -/

/-- A seed on the line is taken in place of the environment's. -/
theorem render_of_perm (hreads : Reads renderInputs.switches arguments pieces)
    (hpieces : pieces.Perm (framePieces scene seedText tickText pretty loud))
    (hseed : ∀ text ∈ seedText, (number? text).isSome)
    (htick : tickText.elim (some 0) number? = some tick) (seedVariable : Option String) :
    render seedVariable arguments =
      (seedText <|> seedVariable).mapM parseSeed >>= fun seed =>
        .ok (.render scene seed tick pretty) := by
  have hnumber : (∀ text ∈ tickText, (number? text).isSome) ∧
      (tickText.bind number?).getD 0 = tick := by
    cases tickText with
    | none => exact ⟨by simp, Option.some.inj htick⟩
    | some text =>
      rw [Option.elim_some] at htick
      simp [htick]
  obtain ⟨found, hscan, hoperands, hvalue, htickValue, hpretty⟩ :=
    scan_of_perm hreads hpieces hseed hnumber.1
  rw [render, hscan]
  simp only [bind, Except.bind, hoperands, hvalue, htickValue, hpretty, hnumber.2]
  rfl

/-- **What a line asks for is told by what is on it**, in whatever order and spelling. The
environment has a part in it only where no seed is given. -/
theorem RenderLine.parse_eq (h : RenderLine scene seed tick pretty arguments)
    (seedVariable : Option String) :
    parse seedVariable arguments =
      (match seed with
        | some n => .ok (some n)
        | none => seedVariable.mapM parseSeed) >>= fun seed =>
          .ok (.render scene seed tick pretty) := by
  obtain @⟨lead, arguments, pieces, seedText, tickText, loud, hlead, hreads, hpieces, hseed, htick⟩ :=
    h
  have hcommand : parse seedVariable (lead ++ "render" :: arguments) =
      render seedVariable arguments := by
    obtain rfl | rfl := hlead
    · exact parse_cons (by decide)
    · rfl
  rw [hcommand]
  cases seedText with
  | none =>
    cases seed with
    | none => exact render_of_perm hreads hpieces (by simp) htick seedVariable
    | some n => cases hseed
  | some text =>
    cases seed with
    | none => cases hseed
    | some n =>
      have hnumber : number? text = some n := Option.some.inj hseed
      rw [render_of_perm hreads hpieces (by simp [hnumber]) htick seedVariable]
      simp [parseSeed, hnumber, bind, Except.bind]

/-- A number in the environment stands for the seed that is not on the line. -/
theorem RenderLine.parse_of_variable (h : RenderLine scene none tick pretty arguments)
    (htext : number? text = some n) :
    parse (some text) arguments = .ok (.render scene (some n) tick pretty) := by
  rw [h.parse_eq]
  simp [parseSeed, htext, bind, Except.bind]

/-- Anything else in the environment is refused, but only if the line has no seed of its own. -/
theorem RenderLine.execute_of_malformed (h : RenderLine scene none tick pretty arguments)
    (htext : number? text = none) (source : Random.Source) (t : FileTree) :
    execute (some text) arguments source t = (⟨2, "", none⟩, t) := by
  have hparse : parse (some text) arguments = .error .misuse := by
    rw [h.parse_eq]
    simp [parseSeed, htext, bind, Except.bind]
  rw [execute, hparse]

/-! ### The usual line -/

/-- A number may be given for a switch in two arguments. -/
theorem Reads.number (s : Switch) (argument : String) (n : Option UInt64)
    (hdash : argument ≠ "--") (hread : read renderInputs.switches argument = .switch s none)
    (hs : s.value = some .number)
    (hrest : Reads renderInputs.switches arguments pieces) :
    Reads renderInputs.switches ((n.elim [] fun n => [argument, n.toNat.repr]) ++ arguments)
      (Piece.given s (n.map fun n => n.toNat.repr) ++ pieces) := by
  cases n with
  | none => exact hrest
  | some n =>
    obtain ⟨hdash', hvalue⟩ := read_eq_operand_of_number (number?_repr n) renderInputs.switches
    exact .switch (.two hdash hread (by rw [hs]; rfl) hdash' hvalue) hrest

/-- The usual line for a frame. -/
def usualLine (scene : String) (seed : Option UInt64) (tick : UInt64) (pretty : Bool) :
    List String :=
  "render" :: ((seed.elim [] fun n => ["--seed", n.toNat.repr]) ++ (["--tick", tick.toNat.repr] ++
    ((if pretty then ["--pretty"] else []) ++ ["--", scene])))

/-- Every frame of every scene can be asked for, with any seed or with none. -/
theorem renderLine_usualLine (scene : String) (seed : Option UInt64) (tick : UInt64)
    (pretty : Bool) : RenderLine scene seed tick pretty (usualLine scene seed tick pretty) := by
  have hscene : Reads renderInputs.switches ["--", scene] [.operand scene] := .operands [scene]
  have hpretty : Reads renderInputs.switches
      ((if pretty then ["--pretty"] else []) ++ ["--", scene])
      (Piece.set prettySwitch pretty ++ [.operand scene]) := by
    cases pretty with
    | false => exact hscene
    | true => exact .switch (.one (by decide) rfl (by decide)) hscene
  have htick := Reads.number tickSwitch "--tick" (some tick) (by decide) rfl rfl hpretty
  have hseed := Reads.number seedSwitch "--seed" seed (by decide) rfl rfl htick
  have hnumber : (seed.map fun n => n.toNat.repr).map number? = seed.map some := by
    rw [Option.map_map]
    exact congrArg seed.map (funext number?_repr)
  have hpieces : Piece.given seedSwitch (seed.map fun n => n.toNat.repr) ++
      (Piece.given tickSwitch (some tick.toNat.repr) ++
        (Piece.set prettySwitch pretty ++ [.operand scene])) =
      framePieces scene (seed.map fun n => n.toNat.repr) (some tick.toNat.repr) pretty false := by
    simp [framePieces, Piece.set]
  exact .intro (.inl rfl) hseed (.of_eq hpieces) hnumber (number?_repr tick)

end Line

/-! ## The seed of a frame -/

/-- The text of a shape in one of two forms. -/
def formText (pretty : Bool) (s : Shape) : Except DrawingError String :=
  if pretty then s.toPrettyJson else s.toJson

/-- The shape that the library draws right after it was given a seed. -/
def seededShape (s : Scene) (n tick : UInt64) (studio : Studio) : Shape :=
  (s.draw tick { studio with source := studio.source.reseed n }).1

section Seed

variable {s : Scene} {scene text : String} {n tick : UInt64} {pretty : Bool}
  {arguments arguments' : List String} {seed : Option UInt64} {seedVariable : Option String}

/-- What was made and drawn before a seed shows in no text of what is drawn after it. -/
theorem exists_formText (hs : s ∈ Gallery.scenes) (n tick : UInt64) (pretty : Bool) :
    ∃ json, ∀ studio, formText pretty (seededShape s n tick studio) = .ok json := by
  have hwritten := Gallery.written_draw hs tick ⟨.ofSeed n, 0⟩
  have hview : ∀ studio, (seededShape s n tick studio).checked =
      (s.draw tick ⟨.ofSeed n, 0⟩).1.checked := by
    intro studio
    exact Shape.checked_congr (Gallery.view_draw_eq hs tick rfl)
  cases pretty with
  | true =>
    obtain ⟨json, hjson⟩ := hwritten.prettyText
    refine ⟨json, fun studio => ?_⟩
    rw [formText, if_pos rfl, Shape.toPrettyJson, hview, ← hjson, Shape.toPrettyJson]
  | false =>
    obtain ⟨json, hjson⟩ := hwritten.text
    refine ⟨json, fun studio => ?_⟩
    rw [formText, if_neg Bool.false_ne_true, Shape.toJson, hview, ← hjson, Shape.toJson]

theorem renderScene_of_mem (hs : s ∈ Gallery.scenes) (n tick : UInt64) (pretty : Bool)
    (source : Random.Source) :
    renderScene s.name (some n) tick pretty source =
      ((· ++ "\n") <$> formText pretty (seededShape s n tick ⟨source, 0⟩)).mapError .drawing := by
  rw [renderScene, Gallery.find?_of_mem hs]
  rfl

theorem renderScene_of_not_mem (h : scene ∉ Gallery.names) (seed : Option UInt64) (tick : UInt64)
    (pretty : Bool) (source : Random.Source) :
    renderScene scene seed tick pretty source = .error (unknownScene scene) := by
  rw [renderScene, Gallery.find?_eq_none h]

/-- A seed leaves nothing of the source that there was before. -/
theorem exists_renderScene (scene : String) (n tick : UInt64) (pretty : Bool) :
    ∃ result, (∀ source, renderScene scene (some n) tick pretty source = result) ∧
      (∀ s ∈ Gallery.scenes, s.name = scene → ∃ json,
        (∀ studio, formText pretty (seededShape s n tick studio) = .ok json) ∧
          result = .ok (json ++ "\n")) ∧
      (scene ∉ Gallery.names → result = .error (unknownScene scene)) := by
  by_cases hscene : scene ∈ Gallery.names
  · obtain ⟨s, hs, rfl⟩ := List.mem_map.1 hscene
    obtain ⟨json, hjson⟩ := exists_formText hs n tick pretty
    refine ⟨.ok (json ++ "\n"), fun source => ?_, fun s' hs' hname => ⟨json, ?_, rfl⟩,
      fun h => absurd hscene h⟩
    · rw [renderScene_of_mem hs, hjson]
      rfl
    · have hsame := Gallery.find?_of_mem hs'
      rw [hname, Gallery.find?_of_mem hs] at hsame
      exact Option.some.inj hsame ▸ hjson
  · refine ⟨.error (unknownScene scene), renderScene_of_not_mem hscene _ _ _, ?_, fun _ => rfl⟩
    rintro s hs rfl
    exact absurd (List.mem_map_of_mem hs) hscene

/-- How a command line ends that only prints. -/
def outcomeOf : Except ToolError String → Outcome
  | .ok stdout => ⟨0, stdout, none⟩
  | .error err => ⟨1, "", some err⟩

theorem execute_of_render (source : Random.Source) (t : FileTree)
    (h : parse seedVariable arguments = .ok (.render scene seed tick pretty)) :
    execute seedVariable arguments source t =
      (outcomeOf (renderScene scene seed tick pretty source), t) := by
  rw [execute_of_parse h, Request.run, Action.on_bind, Working.on_lift]
  cases renderScene scene seed tick pretty source with
  | error err => rfl
  | ok text => simp only [Working.on_print, String.empty_append, outcomeOf]

/-- **It makes no difference where a seed comes from, and what is printed is what the library draws
after it.** Take any line for a frame with a seed, and any line for the same frame without one that
is carried out while the environment holds that seed. Both end in the same way, and so does the
first whatever the environment holds, be it nothing, another number or no number at all. A known
scene is printed as the library writes it when it is drawn after that seed, whatever the library did
before; an unknown one is not found. -/
theorem render_of_seed (h : RenderLine scene (some n) tick pretty arguments)
    (h' : RenderLine scene none tick pretty arguments') (htext : number? text = some n) :
    ∃ outcome,
      (∀ seedVariable source t, execute seedVariable arguments source t = (outcome, t)) ∧
      (∀ source t, execute (some text) arguments' source t = (outcome, t)) ∧
      (∀ s ∈ Gallery.scenes, s.name = scene → ∃ json,
        (∀ studio, formText pretty (seededShape s n tick studio) = .ok json) ∧
          outcome = ⟨0, json ++ "\n", none⟩) ∧
      (scene ∉ Gallery.names → outcome = ⟨1, "", some (unknownScene scene)⟩) := by
  obtain ⟨result, hresult, hknown, hunknown⟩ := exists_renderScene scene n tick pretty
  refine ⟨outcomeOf result, ?_, ?_, ?_, ?_⟩
  · intro seedVariable source t
    rw [execute_of_render source t (h.parse_eq seedVariable), hresult]
  · intro source t
    rw [execute_of_render source t (h'.parse_of_variable htext), hresult]
  · intro s hs hname
    obtain ⟨json, hjson, hok⟩ := hknown s hs hname
    exact ⟨json, hjson, by rw [hok, outcomeOf]⟩
  · intro hname
    rw [hunknown hname, outcomeOf]

/-- A frame asked for with a seed while the environment holds no number, and without one in another
spelling. -/
theorem render_of_seed_orbit :
    let arguments := ["render", "--seed", "9", "--tick", "2", "--", "orbit"]
    let arguments' := ["--verbose", "render", "orbit", "--tick=+2"]
    RenderLine "orbit" (some 9) 2 false arguments ∧ RenderLine "orbit" none 2 false arguments' ∧
    number? "09" = some 9 ∧ ∃ outcome,
      execute (some "nine") arguments (.ofSeed 1) .empty = (outcome, .empty) ∧
      execute (some "09") arguments' (.ofSeed 2) .empty = (outcome, .empty) ∧
      ∃ json, (seededShape Gallery.orbit 9 2 ⟨.ofSeed 3, 4⟩).toJson = .ok json ∧
        outcome = ⟨0, json ++ "\n", none⟩ := by
  intro arguments arguments'
  have h : RenderLine "orbit" (some 9) 2 false arguments := renderLine_usualLine _ _ _ _
  have hreads : Reads renderInputs.switches ["orbit", "--tick=+2"]
      [.operand "orbit", .switch tickSwitch (some "+2")] :=
    .operand (by decide) rfl (.switch (.one (by decide) rfl (by decide)) .nil)
  have hpieces : [.operand "orbit", .switch tickSwitch (some "+2")].Perm
      (framePieces "orbit" none (some "+2") false false) :=
    .swap _ _ _
  have h' : RenderLine "orbit" none 2 false arguments' :=
    .intro (.inr rfl) hreads hpieces rfl (by decide)
  have htext : number? "09" = some 9 := by decide
  obtain ⟨outcome, hgiven, hheld, hknown, -⟩ := render_of_seed h h' htext
  obtain ⟨json, hjson, houtcome⟩ := hknown Gallery.orbit (by simp [Gallery.scenes]) rfl
  exact ⟨h, h', htext, outcome, hgiven _ _ _, hheld _ _, json, hjson _, houtcome⟩

end Seed

end Atelier.Command
