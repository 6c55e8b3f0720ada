import Atelier.Command.Request
import Atelier.Proofs.Command.Order

/-!
# Command lines with an output file

A command line that names an output file is one that does not, with the switch and the file put in
somewhere (`parse_of_output`). This is so for every switch with a value: the arguments that spell it
stand together, and what is found without them is the same but for the switch (`scan_leave_out`).
-/

namespace Atelier.Command

variable {inputs : Inputs} {switches : List Switch} {s : Switch} {name value : String}
  {arguments spelled : List String} {piece : Piece} {pieces front back : List Piece}
  {kinds : List ValueKind} {f f' f₁ : Found}

/-! ## Found without a switch -/

namespace Found

/-- What is found apart from the switch with a name. -/
def without (name : String) (f : Found) : Found :=
  { f with switches := f.switches.filter (·.1 ≠ name) }

theorem addSwitch_eq_ok {attached : Option String} (h : f.addSwitch s attached = .ok f') :
    f.has s.name = false ∧ f' = { f with switches := f.switches ++ [(s.name, attached)] } := by
  obtain ⟨-, hnew, rfl⟩ := addSwitch_eq_ok_iff.1 h
  exact ⟨hnew, followedBy_switch f s attached⟩

theorem has_without (n : String) (h : n ≠ name) : (f.without name).has n = f.has n := by
  simp only [has, without, List.any_filter]
  congr 1
  funext e
  by_cases he : e.1 = n
  · simp [he, h]
  · simp [he]

theorem without_of_not_has (h : f.has name = false) : f.without name = f := by
  simp only [has, List.any_eq_false, decide_eq_true_eq] at h
  rw [without, List.filter_eq_self.2 (by simpa using h)]

theorem without_append (f : Found) (attached : Option String) :
    without name { f with switches := f.switches ++ [(name, attached)] } = f.without name := by
  simp [without, List.filter_append]

theorem lookup_without (f : Found) (n : String) :
    (f.without name).switches.lookup n = if n = name then none else f.switches.lookup n := by
  rw [without]
  induction f.switches with
  | nil => simp
  | cons e rest ih =>
    obtain ⟨m, attached⟩ := e
    by_cases hm : m = name
    · rw [List.filter_cons_of_neg (by simpa using hm), ih, List.lookup_cons]
      by_cases hn : n = name
      · rw [if_pos hn, if_pos hn]
      · rw [if_neg hn, if_neg hn, beq_false_of_ne (hm ▸ hn)]
    · rw [List.filter_cons_of_pos (by simpa using hm), List.lookup_cons, List.lookup_cons, ih]
      by_cases hn : n = m
      · rw [hn, beq_self_eq_true]
        exact (if_neg hm).symm
      · rw [beq_false_of_ne hn]

theorem value?_without (f : Found) : (f.without name).value? name = none := by
  rw [value?, lookup_without, if_pos rfl]
  rfl

theorem value?_without_of_ne {n : String} (f : Found) (h : n ≠ name) :
    (f.without name).value? n = f.value? n := by
  rw [value?, lookup_without, if_neg h, value?]

/-! ### Taking up pieces -/

theorem addOperand_without (text : String) :
    (f.without name).addOperand kinds text = (f.addOperand kinds text).map (without name) := by
  simp only [addOperand, without]
  cases kinds[f.operands.length]? with
  | none => rfl
  | some kind => dsimp only; split_ifs <;> rfl

theorem addSwitch_without (attached : Option String) (h : s.name ≠ name) :
    (f.without name).addSwitch s attached = (f.addSwitch s attached).map (without name) := by
  have hhas : (f.without name).has s.name = f.has s.name := has_without _ h
  simp only [has] at hhas
  unfold addSwitch
  extract_lets fits
  rw [hhas]
  split_ifs
  · simp [without, Except.map, List.filter_append, h]
  · rfl

theorem switches_of_addOperand {text : String} (h : f.addOperand kinds text = .ok f') :
    f'.switches = f.switches := by
  obtain ⟨-, rfl⟩ := addOperand_eq_ok_iff.1 h
  rw [followedBy_operand]

/-- What was found stays in front. -/
theorem initial_of_addPiece (h : f.addPiece kinds piece = .ok f') : f.switches <+: f'.switches := by
  cases piece with
  | operand text =>
    refine ⟨[], ?_⟩
    rw [List.append_nil, switches_of_addOperand h]
  | switch s attached =>
    obtain ⟨-, rfl⟩ := addSwitch_eq_ok h
    exact List.prefix_append _ _

theorem lookup_of_has (h : f.has name = true) :
    ∃ attached, f.switches.lookup name = some attached := by
  rw [← Option.isSome_iff_exists, Option.isSome_iff_ne_none, Ne, List.lookup_eq_none_iff]
  intro hnone
  obtain ⟨e, he, hname⟩ := List.any_eq_true.1 h
  simpa [of_decide_eq_true hname] using hnone e he

theorem has_of_initial (hinitial : f.switches <+: f'.switches) (h : f.has name = true) :
    f'.has name = true := by
  obtain ⟨e, he, hname⟩ := List.any_eq_true.1 h
  exact List.any_eq_true.2 ⟨e, hinitial.subset he, hname⟩

theorem value?_of_initial (hinitial : f.switches <+: f'.switches) (h : f.has name = true) :
    f'.value? name = f.value? name := by
  obtain ⟨attached, hlookup⟩ := lookup_of_has h
  obtain ⟨more, hmore⟩ := hinitial
  rw [value?, value?, ← hmore, List.lookup_append, hlookup, Option.some_or]

/-- A switch that was given before plays no part in what comes behind. -/
theorem addPiece_without (h : f.addPiece kinds piece = .ok f') (hhas : f.has name = true) :
    (f.without name).addPiece kinds piece = .ok (f'.without name) := by
  cases piece with
  | operand text =>
    rw [addPiece] at h ⊢
    rw [addOperand_without, h]
    rfl
  | switch s attached =>
    rw [addPiece] at h ⊢
    have hne : s.name ≠ name := by
      rintro rfl
      simp [(addSwitch_eq_ok h).1] at hhas
    rw [addSwitch_without _ hne, h]
    rfl

theorem foldlM_without (h : pieces.foldlM (addPiece kinds) f = .ok f') (hhas : f.has name = true) :
    pieces.foldlM (addPiece kinds) (f.without name) = .ok (f'.without name) ∧
      f'.value? name = f.value? name := by
  induction pieces generalizing f with
  | nil =>
    obtain rfl : f = f' := Except.ok.inj h
    exact ⟨rfl, rfl⟩
  | cons piece rest ih =>
    rw [List.foldlM_cons] at h ⊢
    obtain ⟨f₁, hpiece, h⟩ := bind_eq_ok_iff.1 h
    have hinitial := initial_of_addPiece hpiece
    obtain ⟨hrest, hvalue⟩ := ih h (has_of_initial hinitial hhas)
    rw [addPiece_without hpiece hhas]
    exact ⟨hrest, hvalue.trans (value?_of_initial hinitial hhas)⟩

/-- A value that is found is that of one piece, without which nothing else changes. -/
theorem exists_piece (h : pieces.foldlM (addPiece kinds) f = .ok f') (hnew : f.has name = false)
    (hvalue : f'.value? name = some value) :
    ∃ front s back, pieces = front ++ .switch s (some value) :: back ∧ s.name = name ∧
      (front ++ back).foldlM (addPiece kinds) f = .ok (f'.without name) := by
  induction pieces generalizing f with
  | nil =>
    obtain rfl : f = f' := Except.ok.inj h
    rw [← without_of_not_has hnew, value?_without] at hvalue
    cases hvalue
  | cons piece rest ih =>
    rw [List.foldlM_cons] at h
    obtain ⟨f₁, hpiece, h⟩ := bind_eq_ok_iff.1 h
    cases hhas : f₁.has name with
    | false =>
      obtain ⟨front, s, back, rfl, hs, hfold⟩ := ih h hhas
      refine ⟨piece :: front, s, back, rfl, hs, ?_⟩
      rw [List.cons_append, List.foldlM_cons, hpiece]
      exact hfold
    | true =>
      obtain ⟨hfold, hkept⟩ := foldlM_without h hhas
      cases piece with
      | operand text =>
        rw [has, switches_of_addOperand hpiece, ← has, hnew] at hhas
        cases hhas
      | switch s attached =>
        obtain ⟨-, rfl⟩ := addSwitch_eq_ok hpiece
        have hs : s.name = name := by
          rw [has, List.any_append, ← has, hnew] at hhas
          simpa using hhas
        have hwithout := without_of_not_has hnew
        have hlookup : f.switches.lookup name = none := by
          rw [← hwithout, lookup_without, if_pos rfl]
        rw [hvalue, value?, List.lookup_append, hlookup, hs] at hkept
        obtain rfl : some value = attached := by simpa using hkept
        refine ⟨[], s, rest, rfl, hs, ?_⟩
        rwa [hs, without_append, hwithout] at hfold

end Found

/-! ## Command lines without a switch -/

theorem Reads.leave_out {attached : Option String} (h : Reads switches arguments pieces)
    (hpieces : pieces = front ++ .switch s attached :: back) :
    ∃ before spelled after, arguments = before ++ spelled ++ after ∧
      Spells switches s attached spelled ∧ Reads switches (before ++ after) (front ++ back) := by
  induction h generalizing front with
  | nil => simp at hpieces
  | operands texts =>
    have hmem : Piece.switch s attached ∈ texts.map Piece.operand := by simp [hpieces]
    simp at hmem
  | @operand argument arguments pieces hdash hread hrest ih =>
    cases front with
    | nil => simp at hpieces
    | cons piece front =>
      obtain ⟨rfl, htail⟩ := List.cons.inj hpieces
      obtain ⟨before, spelled, after, rfl, hspelled, hreads⟩ := ih htail
      exact ⟨argument :: before, spelled, after, by simp, hspelled, .operand hdash hread hreads⟩
  | @switch s' attached' spelled' arguments pieces hs hrest ih =>
    cases front with
    | nil =>
      obtain ⟨hhead, rfl⟩ := List.cons.inj hpieces
      obtain ⟨rfl, rfl⟩ := Piece.switch.inj hhead
      exact ⟨[], spelled', arguments, by simp, hs, hrest⟩
    | cons piece front =>
      obtain ⟨rfl, htail⟩ := List.cons.inj hpieces
      obtain ⟨before, spelled, after, rfl, hspelled, hreads⟩ := ih htail
      refine ⟨spelled' ++ before, spelled, after, by simp, hspelled, ?_⟩
      rw [List.append_assoc]
      exact .switch hs hreads

/-- **A switch with a value can be left out of a command line.** -/
theorem scan_leave_out (h : scan inputs arguments = .ok f) (hvalue : f.value? name = some value) :
    ∃ before spelled after, ∃ s ∈ inputs.switches, s.name = name ∧
      arguments = before ++ spelled ++ after ∧ spelled ∈ s.spellings value ∧
      scan inputs (before ++ after) = .ok (f.without name) := by
  obtain ⟨pieces, hreads, hfold⟩ := scanAfter_eq_ok_iff.1 h
  obtain ⟨front, s, back, rfl, hs, hfold⟩ := Found.exists_piece hfold rfl hvalue
  obtain ⟨before, spelled, after, rfl, hspelled, hreads⟩ := hreads.leave_out rfl
  obtain ⟨hmem, hspelled⟩ := hspelled.mem_spellings
  exact ⟨before, spelled, after, s, hmem, hs, rfl, hspelled,
    scanAfter_eq_ok_iff.2 ⟨_, hreads, hfold⟩⟩

/-! ## Requests with an output file -/

/-- The file that a request names for its output. -/
def Request.output? : Request → Option String
  | .docs output _ | .package _ _ output => output
  | .render .. | .scenes | .unpackage .. => none

/-- The same request with no file for its output. -/
def Request.printed : Request → Request
  | .docs _ summaries => .docs none summaries
  | .package root extension _ => .package root extension none
  | request => request

variable {seedVariable : Option String} {request : Request} {file : String}

/-- The switch for the output is one and the same for both commands that have it, and can be left
out of either. -/
theorem scan_of_output (hinputs : inputs = docsInputs ∨ inputs = packageInputs)
    (h : scan inputs arguments = .ok f) (hfile : f.value? "output" = some file) :
    ∃ before spelled after, arguments = before ++ spelled ++ after ∧
      spelled ∈ output.spellings file ∧
        scan inputs (before ++ after) = .ok (f.without "output") := by
  have hdocs : ∀ s ∈ docsInputs.switches, s.name = "output" → s = output := by decide
  have hpackage : ∀ s ∈ packageInputs.switches, s.name = "output" → s = output := by decide
  obtain ⟨before, spelled, after, s, hmem, hname, hsplit, hspelled, hrest⟩ := scan_leave_out h hfile
  have hs : s = output := by
    obtain rfl | rfl := hinputs
    · exact hdocs s hmem hname
    · exact hpackage s hmem hname
  exact ⟨before, spelled, after, hsplit, hs ▸ hspelled, hrest⟩

theorem docs_eq_ok_iff :
    docs arguments = .ok request ↔
      ∃ found, scan docsInputs arguments = .ok found ∧
        request = .docs (found.value? "output") (found.has "summaries") := by
  rw [docs, bind_eq_ok_iff]
  simp [pure, Except.pure, eq_comm]

theorem package_eq_ok_iff :
    package arguments = .ok request ↔
      ∃ found root, scan packageInputs arguments = .ok found ∧ found.operands = [root] ∧
        request =
          .package root ((found.value? "extension").getD "rs") (found.value? "output") := by
  rw [package, bind_eq_ok_iff]
  constructor
  · rintro ⟨found, hscan, h⟩
    split at h
    next root hroot => exact ⟨found, root, hscan, hroot, (Except.ok.inj h).symm⟩
    next => cases h
  · rintro ⟨found, root, hscan, hroot, rfl⟩
    refine ⟨found, hscan, ?_⟩
    rw [hroot]
    rfl

theorem docs_of_output (h : docs arguments = .ok request) (hfile : request.output? = some file) :
    ∃ before spelled after, arguments = before ++ spelled ++ after ∧
      spelled ∈ output.spellings file ∧ docs (before ++ after) = .ok request.printed := by
  obtain ⟨found, hscan, rfl⟩ := docs_eq_ok_iff.1 h
  obtain ⟨before, spelled, after, hsplit, hspelled, hrest⟩ := scan_of_output (.inl rfl) hscan hfile
  refine ⟨before, spelled, after, hsplit, hspelled, docs_eq_ok_iff.2 ⟨_, hrest, ?_⟩⟩
  rw [Request.printed, Found.value?_without, Found.has_without _ (by decide)]

theorem package_of_output (h : package arguments = .ok request)
    (hfile : request.output? = some file) :
    ∃ before spelled after, arguments = before ++ spelled ++ after ∧
      spelled ∈ output.spellings file ∧ package (before ++ after) = .ok request.printed := by
  obtain ⟨found, root, hscan, hroot, rfl⟩ := package_eq_ok_iff.1 h
  obtain ⟨before, spelled, after, hsplit, hspelled, hrest⟩ := scan_of_output (.inr rfl) hscan hfile
  refine ⟨before, spelled, after, hsplit, hspelled, package_eq_ok_iff.2 ⟨_, root, hrest, hroot, ?_⟩⟩
  rw [Request.printed, Found.value?_without, Found.value?_without_of_ne _ (by decide)]

/-! ### The other commands -/

theorem output?_of_render (h : render seedVariable arguments = .ok request) :
    request.output? = none := by
  obtain ⟨found, -, h⟩ := bind_eq_ok_iff.1 h
  split at h
  · obtain ⟨seed, -, h⟩ := bind_eq_ok_iff.1 h
    obtain rfl := Except.ok.inj h
    rfl
  · cases h

theorem output?_of_scenes (h : scenes arguments = .ok request) : request.output? = none := by
  obtain ⟨found, -, h⟩ := bind_eq_ok_iff.1 h
  obtain rfl := Except.ok.inj h
  rfl

theorem output?_of_unpackage (h : unpackage arguments = .ok request) :
    request.output? = none := by
  obtain ⟨found, -, h⟩ := bind_eq_ok_iff.1 h
  split at h
  · obtain rfl := Except.ok.inj h
    rfl
  · cases h

/-! ### Whole command lines -/

theorem parseCommand_of_output (h : parseCommand seedVariable name arguments = .ok request)
    (hfile : request.output? = some file) :
    ∃ before spelled after, arguments = before ++ spelled ++ after ∧
      spelled ∈ output.spellings file ∧
      parseCommand seedVariable name (before ++ after) = .ok request.printed := by
  unfold parseCommand at h
  split at h
  · simp [output?_of_render h] at hfile
  · simp [output?_of_scenes h] at hfile
  · exact docs_of_output h hfile
  · exact package_of_output h hfile
  · simp [output?_of_unpackage h] at hfile
  · cases h
  · split at h <;> cases h

theorem parse_cons (h : name ≠ "--verbose") :
    parse seedVariable (name :: arguments) = parseCommand seedVariable name arguments := by
  unfold parse
  split <;> simp_all

/-- **A command line with an output file is one without, but for the switch and the file.** -/
theorem parse_of_output (h : parse seedVariable arguments = .ok request)
    (hfile : request.output? = some file) :
    ∃ before spelled after, arguments = before ++ spelled ++ after ∧
      spelled ∈ output.spellings file ∧
      parse seedVariable (before ++ after) = .ok request.printed := by
  unfold parse at h
  split at h
  · cases h
  · cases h
  next name arguments =>
    obtain ⟨before, spelled, after, rfl, hspelled, hrest⟩ := parseCommand_of_output h hfile
    exact ⟨"--verbose" :: name :: before, spelled, after, by simp, hspelled, hrest⟩
  next name arguments _ _ =>
    obtain ⟨before, spelled, after, rfl, hspelled, hrest⟩ := parseCommand_of_output h hfile
    refine ⟨name :: before, spelled, after, by simp, hspelled, ?_⟩
    -- In place of a command the switch is refused, so this is not it.
    have hname : name ≠ "--verbose" := by
      rintro rfl
      cases h
    rw [List.cons_append, parse_cons hname]
    exact hrest

end Atelier.Command
