import Atelier.Command.Arguments
import Atelier.Proofs.Attempt
import Mathlib.Data.List.Basic
import Mathlib.Tactic.SplitIfs

/-!
# The pieces of a command line

Arguments are read as pieces: an operand is one argument, and a switch is spelled by one or two
(`Reads`). A command line is right exactly when its pieces can be taken up one after the other
(`scanAfter_eq_ok_iff`).
-/

namespace Atelier.Command

/-! ## Spellings -/

/-- The ways to give a switch with a value. -/
def Switch.spellings (s : Switch) (value : String) : List (List String) :=
  ["--" ++ s.name, value] :: ["--" ++ s.name ++ "=" ++ value] ::
    match s.letter with
    | none => []
    | some c =>
      [["-" ++ .singleton c, value], ["-" ++ .singleton c ++ "=" ++ value],
        ["-" ++ .singleton c ++ value]]

section Reading

variable {switches : List Switch} {s : Switch} {argument name value : String}
  {attached : Option String} {text : List Char} {letter : Char}

/-- A text is its name and, if there is one, an equals sign with the value behind it. -/
theorem eq_of_cutAtEquals (h : cutAtEquals text = (name, attached)) :
    text = name.toList ++ (attached.map fun value => '=' :: value.toList).getD [] := by
  have hsplit := List.takeWhile_append_dropWhile (p := (· ≠ '=')) (l := text)
  have hdrop := List.prefix_iff_eq_append.1 (List.takeWhile_prefix (· ≠ '=') (l := text))
  have hhead := List.head?_dropWhile_not (· ≠ '=') text
  rw [List.append_cancel_left (hsplit.trans hdrop.symm)] at hhead
  simp only [cutAtEquals] at h
  cases hrest : text.drop (text.takeWhile (· ≠ '=')).length with
  | nil =>
    rw [hrest] at h hdrop
    obtain ⟨rfl, rfl⟩ := Prod.mk.inj h
    simpa using hdrop.symm
  | cons c value =>
    rw [hrest] at h hdrop hhead
    obtain rfl : c = '=' := by simpa using hhead
    obtain ⟨rfl, rfl⟩ := Prod.mk.inj h
    simpa using hdrop.symm

theorem readName_eq_switch (h : readName switches text = .switch s attached) :
    s ∈ switches ∧
      text = s.name.toList ++ (attached.map fun value => '=' :: value.toList).getD [] := by
  rcases hcut : cutAtEquals text with ⟨name, found⟩
  rw [readName, hcut] at h
  dsimp only at h
  cases hs : switches.find? fun s => s.name = name with
  | none => simp [hs] at h
  | some s' =>
    rw [hs] at h
    obtain ⟨rfl, rfl⟩ := Reading.switch.inj h
    have hname : s'.name = name := by simpa using List.find?_some hs
    rw [hname]
    exact ⟨List.mem_of_find?_eq_some hs, eq_of_cutAtEquals hcut⟩

theorem readLetter_eq_switch (h : readLetter switches letter text = .switch s attached) :
    s ∈ switches ∧ s.letter = some letter ∧
      (attached = none ∧ text = [] ∨
        ∃ value, attached = some value ∧ (text = '=' :: value.toList ∨ text = value.toList)) := by
  rw [readLetter] at h
  cases hs : switches.find? fun s => s.letter = some letter with
  | none => simp [hs] at h
  | some s' =>
    rw [hs] at h
    dsimp only at h
    have hmem := List.mem_of_find?_eq_some hs
    have hletter : s'.letter = some letter := by simpa using List.find?_some hs
    split at h
    · obtain ⟨rfl, rfl⟩ := Reading.switch.inj h
      exact ⟨hmem, hletter, .inl ⟨rfl, rfl⟩⟩
    · obtain ⟨rfl, rfl⟩ := Reading.switch.inj h
      exact ⟨hmem, hletter, .inr ⟨_, rfl, .inl (by simp)⟩⟩
    · obtain ⟨rfl, rfl⟩ := Reading.switch.inj h
      exact ⟨hmem, hletter, .inr ⟨_, rfl, .inr (by simp)⟩⟩

/-- An argument that is read as a switch is its name behind two dashes or its letter behind one,
and then the value, if it is in the same argument. -/
theorem read_eq_switch (h : read switches argument = .switch s attached) :
    s ∈ switches ∧
      match attached with
      | none => ∀ value, [argument, value] ∈ s.spellings value
      | some value => [argument] ∈ s.spellings value := by
  rw [read] at h
  split at h
  next text hargument =>
    obtain ⟨hmem, rfl⟩ := readName_eq_switch h
    refine ⟨hmem, ?_⟩
    cases attached with
    | none =>
      have heq : argument = "--" ++ s.name := by
        rw [← String.toList_inj, hargument]
        simp
      simp [Switch.spellings, heq]
    | some value =>
      have heq : argument = "--" ++ s.name ++ "=" ++ value := by
        rw [← String.toList_inj, hargument]
        simp
      simp [Switch.spellings, heq]
  next letter text _ hargument =>
    obtain ⟨hmem, hletter, htext⟩ := readLetter_eq_switch h
    refine ⟨hmem, ?_⟩
    obtain ⟨rfl, rfl⟩ | ⟨value, rfl, rfl | rfl⟩ := htext
    · have heq : argument = "-" ++ .singleton letter := by
        rw [← String.toList_inj, hargument]
        simp
      simp [Switch.spellings, hletter, heq]
    · have heq : argument = "-" ++ .singleton letter ++ "=" ++ value := by
        rw [← String.toList_inj, hargument]
        simp
      simp [Switch.spellings, hletter, heq]
    · have heq : argument = "-" ++ .singleton letter ++ value := by
        rw [← String.toList_inj, hargument]
        simp
      simp [Switch.spellings, hletter, heq]
  next => cases h

end Reading

/-! ## Pieces -/

/-- A part of a command line: an operand, or a switch with its value. -/
inductive Piece where
  | operand (text : String)
  | switch (s : Switch) (value : Option String)

/-- The arguments that spell a switch: one, or two if the value is an argument of its own. -/
inductive Spells (switches : List Switch) (s : Switch) : Option String → List String → Prop
  | one {argument : String} {attached : Option String} (hdash : argument ≠ "--")
      (hread : read switches argument = .switch s attached)
      (hwhole : ¬ (s.value.isSome ∧ attached.isNone)) : Spells switches s attached [argument]
  | two {argument value : String} (hdash : argument ≠ "--")
      (hread : read switches argument = .switch s none) (hwants : s.value.isSome)
      (hdash' : value ≠ "--") (hvalue : read switches value = .operand) :
      Spells switches s (some value) [argument, value]

/-- The pieces that arguments are read as. -/
inductive Reads (switches : List Switch) : List String → List Piece → Prop
  | nil : Reads switches [] []
  | operands (texts : List String) : Reads switches ("--" :: texts) (texts.map .operand)
  | operand {argument : String} {arguments : List String} {pieces : List Piece}
      (hdash : argument ≠ "--") (hread : read switches argument = .operand)
      (hrest : Reads switches arguments pieces) :
      Reads switches (argument :: arguments) (.operand argument :: pieces)
  | switch {s : Switch} {value : Option String} {spelled arguments : List String}
      {pieces : List Piece} (hs : Spells switches s value spelled)
      (hrest : Reads switches arguments pieces) :
      Reads switches (spelled ++ arguments) (.switch s value :: pieces)

namespace Found

/-- Takes up a piece. -/
def addPiece (kinds : List ValueKind) (f : Found) : Piece → Except Refusal Found
  | .operand text => f.addOperand kinds text
  | .switch s value => f.addSwitch s value

end Found

section Pieces

variable {inputs : Inputs} {switches : List Switch} {s : Switch} {argument : String}
  {value : Option String} {arguments spelled rest : List String} {pieces front back : List Piece}
  {f f' f₁ : Found}

theorem Spells.mem_spellings {value : String} (h : Spells switches s (some value) spelled) :
    s ∈ switches ∧ spelled ∈ s.spellings value := by
  cases h with
  | one _ hread _ => exact read_eq_switch hread
  | two _ hread _ _ _ =>
    obtain ⟨hmem, hspelled⟩ := read_eq_switch hread
    exact ⟨hmem, hspelled value⟩

/-! ### One argument -/

theorem scanAfter_dashes (inputs : Inputs) (f : Found) (rest : List String) :
    scanAfter inputs f none ("--" :: rest) = rest.foldlM (Found.addOperand inputs.operands) f := by
  rw [scanAfter, if_pos rfl]

theorem scanAfter_cons (f : Found) (rest : List String) (hdash : argument ≠ "--") :
    scanAfter inputs f none (argument :: rest) =
      match read inputs.switches argument with
      | .operand => f.addOperand inputs.operands argument >>= (scanAfter inputs · none rest)
      | .refused r => .error r
      | .switch s attached =>
        if s.value.isSome ∧ attached.isNone then scanAfter inputs f (some s) rest
        else f.addSwitch s attached >>= (scanAfter inputs · none rest) := by
  rw [scanAfter, if_neg hdash]
  cases read inputs.switches argument <;> rfl

/-- A switch that wants its value finds it in the next argument. -/
theorem scanAfter_wanting_eq_ok_iff :
    scanAfter inputs f (some s) arguments = .ok f' ↔
      ∃ value rest, arguments = value :: rest ∧ value ≠ "--" ∧
        read inputs.switches value = .operand ∧
        ∃ f₁, f.addSwitch s (some value) = .ok f₁ ∧ scanAfter inputs f₁ none rest = .ok f' := by
  cases arguments with
  | nil => simp [scanAfter]
  | cons value rest =>
    by_cases hdash : value = "--"
    · rw [scanAfter, if_pos hdash]
      simp [hdash]
    · rw [scanAfter, if_neg hdash]
      cases hread : read inputs.switches value with
      | operand =>
        cases hadd : f.addSwitch s (some value) with
        | error r => simp [hread, hadd, bind, Except.bind]
        | ok f₁ => simp [hdash, hread, hadd, bind, Except.bind]
      | switch s' attached => simp [hread]
      | refused r => simp [hread]

/-! ### All arguments -/

/-- What was read can be scanned. -/
theorem Reads.scanAfter_eq (h : Reads inputs.switches arguments pieces) :
    scanAfter inputs f none arguments = pieces.foldlM (Found.addPiece inputs.operands) f := by
  induction h generalizing f with
  | nil => rfl
  | operands texts =>
    rw [scanAfter_dashes, List.foldlM_map]
    rfl
  | operand hdash hread hrest ih =>
    rw [scanAfter_cons _ _ hdash, hread, List.foldlM_cons]
    exact bind_congr fun _ => ih
  | switch hs hrest ih =>
    rw [List.foldlM_cons]
    cases hs with
    | one hdash hread hwhole =>
      rw [List.singleton_append, scanAfter_cons _ _ hdash, hread]
      dsimp only
      rw [if_neg hwhole]
      exact bind_congr fun _ => ih
    | two hdash hread hwants hdash' hvalue =>
      rw [List.cons_append, scanAfter_cons _ _ hdash, hread]
      dsimp only
      rw [if_pos ⟨hwants, rfl⟩, List.singleton_append, scanAfter, if_neg hdash', hvalue]
      exact bind_congr fun _ => ih

/-- Whether arguments are read as pieces that lead from what was found before to what is found with
them. -/
def Scans (inputs : Inputs) (f : Found) (arguments : List String) (f' : Found) : Prop :=
  ∃ pieces, Reads inputs.switches arguments pieces ∧
    pieces.foldlM (Found.addPiece inputs.operands) f = .ok f'

theorem Scans.operand (hdash : argument ≠ "--")
    (hread : read inputs.switches argument = .operand)
    (hadd : f.addOperand inputs.operands argument = .ok f₁) (h : Scans inputs f₁ rest f') :
    Scans inputs f (argument :: rest) f' := by
  obtain ⟨pieces, hpieces, hfold⟩ := h
  refine ⟨.operand argument :: pieces, .operand hdash hread hpieces, ?_⟩
  rw [List.foldlM_cons, Found.addPiece, hadd]
  exact hfold

theorem Scans.switch (hs : Spells inputs.switches s value spelled)
    (hadd : f.addSwitch s value = .ok f₁) (h : Scans inputs f₁ rest f') :
    Scans inputs f (spelled ++ rest) f' := by
  obtain ⟨pieces, hpieces, hfold⟩ := h
  refine ⟨.switch s value :: pieces, .switch hs hpieces, ?_⟩
  rw [List.foldlM_cons, Found.addPiece, hadd]
  exact hfold

theorem scans_of_scanAfter (h : scanAfter inputs f none arguments = .ok f') :
    Scans inputs f arguments f' := by
  -- A switch may take two arguments, so the induction is on how many there are.
  induction hlength : arguments.length using Nat.strongRecOn generalizing arguments f with
  | ind n ih =>
    match arguments with
    | [] => exact ⟨[], .nil, h⟩
    | argument :: rest =>
      by_cases hdash : argument = "--"
      · subst hdash
        rw [scanAfter_dashes] at h
        refine ⟨rest.map .operand, .operands rest, ?_⟩
        rw [List.foldlM_map]
        exact h
      rw [scanAfter_cons _ _ hdash] at h
      cases hread : read inputs.switches argument with
      | refused r => simp [hread] at h
      | operand =>
        rw [hread] at h
        obtain ⟨f₁, hadd, h⟩ := bind_eq_ok_iff.1 h
        exact .operand hdash hread hadd (ih rest.length (by simp [← hlength]) h rfl)
      | switch s attached =>
        rw [hread] at h
        dsimp only at h
        split_ifs at h with hwants
        · obtain ⟨value, rest, rfl, hdash', hvalue, f₁, hadd, h⟩ := scanAfter_wanting_eq_ok_iff.1 h
          obtain rfl : attached = none := by simpa using hwants.2
          have hs := Spells.two hdash hread hwants.1 hdash' hvalue
          exact .switch hs hadd
            (ih rest.length (by simp only [← hlength, List.length_cons]; omega) h rfl)
        · obtain ⟨f₁, hadd, h⟩ := bind_eq_ok_iff.1 h
          exact .switch (.one hdash hread hwants) hadd
            (ih rest.length (by simp [← hlength]) h rfl)

/-- **A command line is right exactly when its pieces can be taken up.** -/
theorem scanAfter_eq_ok_iff :
    scanAfter inputs f none arguments = .ok f' ↔ Scans inputs f arguments f' := by
  refine ⟨scans_of_scanAfter, ?_⟩
  rintro ⟨pieces, hpieces, hfold⟩
  rw [hpieces.scanAfter_eq, hfold]

end Pieces

end Atelier.Command
