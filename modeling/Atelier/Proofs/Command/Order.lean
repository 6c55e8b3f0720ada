import Atelier.Proofs.Command.Pieces
import Mathlib.Data.List.Nodup

/-!
# Switches in any order

A command line is right when its pieces fit, no switch stands there twice and the operands are of
the kinds that are wanted; what is found on it are then just its pieces (`scan_eq_ok_iff`). A switch
is looked up by its name, so it is found wherever it stands (`Found.value?_eq_of_perm`).
-/

namespace Atelier.Command

namespace Piece

/-- What a piece adds to the switches that were found. -/
def switch? : Piece → Option (String × Option String)
  | operand _ => none
  | switch s value => some (s.name, value)

/-- What a piece adds to the operands that were found. -/
def operand? : Piece → Option String
  | operand text => some text
  | switch .. => none

/-- Whether a switch has a value of the right kind, or none if it takes none. -/
def Fits : Piece → Prop
  | operand _ => True
  | switch s value => Option.Rel (fun kind text => ValueKind.accepts kind text) s.value value

end Piece

variable {inputs : Inputs} {s : Switch} {kinds : List ValueKind} {name : String}
  {value : Option String} {arguments : List String} {piece : Piece} {pieces pieces' : List Piece}
  {f f' : Found}

namespace Found

/-- Whether no switch was found twice, and each operand is of the kind wanted in its place. -/
structure Right (kinds : List ValueKind) (f : Found) : Prop where
  nodup : (f.switches.map Prod.fst).Nodup
  accepts : ∀ (i : Nat) (text : String), f.operands[i]? = some text →
    ∃ kind, kinds[i]? = some kind ∧ kind.accepts text

theorem right_nil (kinds : List ValueKind) : Right kinds ⟨[], []⟩ := ⟨.nil, by simp⟩

/-- What is found with some more pieces. -/
def followedBy (f : Found) (pieces : List Piece) : Found :=
  ⟨f.switches ++ pieces.filterMap Piece.switch?, f.operands ++ pieces.filterMap Piece.operand?⟩

theorem followedBy_nil (f : Found) : f.followedBy [] = f := by
  simp [followedBy]

theorem followedBy_cons (f : Found) (piece : Piece) (pieces : List Piece) :
    f.followedBy (piece :: pieces) = (f.followedBy [piece]).followedBy pieces := by
  rw [followedBy, ← List.singleton_append, List.filterMap_append, List.filterMap_append,
    ← List.append_assoc, ← List.append_assoc]
  rfl

theorem followedBy_switch (f : Found) (s : Switch) (value : Option String) :
    f.followedBy [.switch s value] = { f with switches := f.switches ++ [(s.name, value)] } := by
  simp [followedBy, Piece.switch?, Piece.operand?]

theorem followedBy_operand (f : Found) (text : String) :
    f.followedBy [.operand text] = { f with operands := f.operands ++ [text] } := by
  simp [followedBy, Piece.switch?, Piece.operand?]

theorem followedBy_perm (f : Found) (h : pieces.Perm pieces') :
    (f.followedBy pieces).switches.Perm (f.followedBy pieces').switches ∧
      (f.followedBy pieces).operands.Perm (f.followedBy pieces').operands :=
  ⟨(h.filterMap _).append_left _, (h.filterMap _).append_left _⟩

/-- What was found first is right on its own. -/
theorem Right.of_followedBy (h : Right kinds (f.followedBy pieces)) : Right kinds f := by
  obtain ⟨hnodup, haccepts⟩ := h
  rw [followedBy, List.map_append] at hnodup
  refine ⟨hnodup.of_append_left, fun i text hi => haccepts i text ?_⟩
  rw [followedBy, List.getElem?_append_left (List.getElem?_eq_some_iff.1 hi).1, hi]

/-! ### Taking up pieces -/

theorem has_eq_false_iff : f.has name = false ↔ name ∉ f.switches.map Prod.fst := by
  rw [has, List.any_eq_false, List.mem_map]
  simp only [decide_eq_true_eq, not_exists, not_and]

theorem addSwitch_eq_ok_iff :
    f.addSwitch s value = .ok f' ↔
      (Piece.switch s value).Fits ∧ f.has s.name = false ∧
        f' = f.followedBy [.switch s value] := by
  unfold addSwitch
  extract_lets fits
  have hfits : fits = true ↔ (Piece.switch s value).Fits := by
    rw [Piece.Fits]
    cases hkind : s.value <;> cases value <;> simp [fits, hkind]
  have hnew : (¬ f.switches.any (·.1 = s.name)) ↔ f.has s.name = false := by
    rw [Bool.not_eq_true, has]
  rw [← hfits, ← hnew, followedBy_switch, ← and_assoc]
  split_ifs with h
  · rw [and_iff_right h, Except.ok.injEq, eq_comm]
  · exact iff_of_false nofun fun hok => h hok.1

theorem addOperand_eq_ok_iff {text : String} :
    f.addOperand kinds text = .ok f' ↔
      (∃ kind, kinds[f.operands.length]? = some kind ∧ kind.accepts text) ∧
        f' = f.followedBy [.operand text] := by
  rw [addOperand, followedBy_operand]
  cases kinds[f.operands.length]? with
  | none => simp
  | some kind =>
    simp only [Option.some.injEq, exists_eq_left']
    split_ifs with h
    · rw [and_iff_right h, Except.ok.injEq, eq_comm]
    · exact iff_of_false nofun fun hok => h hok.1

/-- **A piece can be taken up if it fits and what is found with it is right.** -/
theorem addPiece_eq_ok_iff (h : Right kinds f) :
    f.addPiece kinds piece = .ok f' ↔
      piece.Fits ∧ f' = f.followedBy [piece] ∧ Right kinds f' := by
  cases piece with
  | operand text =>
    rw [addPiece, addOperand_eq_ok_iff, followedBy_operand]
    constructor
    · rintro ⟨hnext, rfl⟩
      refine ⟨trivial, rfl, h.nodup, fun i text' hi => ?_⟩
      rcases Nat.lt_trichotomy i f.operands.length with hlt | rfl | hgt
      · exact h.accepts i text' (by rwa [List.getElem?_append_left hlt] at hi)
      · obtain rfl : text = text' := by simpa using hi
        exact hnext
      · rw [List.getElem?_eq_none (by simpa using Nat.succ_le_of_lt hgt)] at hi
        cases hi
    · rintro ⟨-, rfl, hright⟩
      exact ⟨hright.accepts _ text (by simp), rfl⟩
  | switch s value =>
    have hnodup : Right kinds { f with switches := f.switches ++ [(s.name, value)] } ↔
        f.has s.name = false := by
      rw [has_eq_false_iff]
      constructor
      · rintro ⟨hnodup, -⟩ hmem
        rw [List.map_append] at hnodup
        exact (List.disjoint_of_nodup_append hnodup) hmem (List.mem_singleton_self _)
      · intro hnew
        refine ⟨?_, h.accepts⟩
        rw [List.map_append]
        exact h.nodup.append (List.nodup_singleton _) (by simpa using hnew)
    rw [addPiece, addSwitch_eq_ok_iff, followedBy_switch]
    constructor
    · rintro ⟨hfits, hnew, rfl⟩
      exact ⟨hfits, rfl, hnodup.2 hnew⟩
    · rintro ⟨hfits, rfl, hright⟩
      exact ⟨hfits, hnodup.1 hright, rfl⟩

theorem foldlM_addPiece_eq_ok_iff (h : Right kinds f) :
    pieces.foldlM (addPiece kinds) f = .ok f' ↔
      (∀ piece ∈ pieces, piece.Fits) ∧ f' = f.followedBy pieces ∧ Right kinds f' := by
  induction pieces generalizing f with
  | nil =>
    rw [List.foldlM_nil, followedBy_nil]
    constructor
    · intro hok
      obtain rfl : f = f' := Except.ok.inj hok
      exact ⟨by simp, rfl, h⟩
    · rintro ⟨-, rfl, -⟩
      rfl
  | cons piece rest ih =>
    rw [List.foldlM_cons, bind_eq_ok_iff, followedBy_cons, List.forall_mem_cons]
    constructor
    · rintro ⟨f₁, hpiece, hrest⟩
      obtain ⟨hfits, rfl, hright⟩ := (addPiece_eq_ok_iff h).1 hpiece
      obtain ⟨hall, hfound⟩ := (ih hright).1 hrest
      exact ⟨⟨hfits, hall⟩, hfound⟩
    · rintro ⟨⟨hfits, hall⟩, rfl, hright⟩
      have hfirst := hright.of_followedBy
      exact ⟨_, (addPiece_eq_ok_iff h).2 ⟨hfits, rfl, hfirst⟩,
        (ih hfirst).2 ⟨hall, rfl, hright⟩⟩

end Found

/-- **What is found are the pieces**, and a command line is right exactly when they fit, none of the
switches among them is given twice and the operands are those that are wanted. -/
theorem scan_eq_ok_iff :
    scan inputs arguments = .ok f ↔
      ∃ pieces, Reads inputs.switches arguments pieces ∧ (∀ piece ∈ pieces, piece.Fits) ∧
        f = Found.followedBy ⟨[], []⟩ pieces ∧ f.Right inputs.operands := by
  rw [scan, scanAfter_eq_ok_iff]
  exact exists_congr fun pieces =>
    and_congr_right fun _ => Found.foldlM_addPiece_eq_ok_iff (Found.right_nil _)

/-! ## Looking up by name -/

/-- Where no name stands twice, what is looked up is what is there. -/
theorem lookup_eq_some_iff_mem {β : Type} {entries : List (String × β)} {b : β}
    (h : (entries.map Prod.fst).Nodup) : entries.lookup name = some b ↔ (name, b) ∈ entries := by
  induction entries with
  | nil => simp
  | cons e rest ih =>
    obtain ⟨n, b'⟩ := e
    obtain ⟨hn, hrest⟩ := List.nodup_cons.1 h
    rw [List.lookup_cons, List.mem_cons, ← ih hrest]
    by_cases hname : name = n
    · subst hname
      have hnone : rest.lookup name = none := by
        rw [List.lookup_eq_none_iff]
        intro e he
        rw [bne_iff_ne]
        rintro rfl
        exact hn (List.mem_map.2 ⟨e, he, rfl⟩)
      simp [hnone, eq_comm]
    · simp [hname, beq_false_of_ne hname]

namespace Found

/-- **A switch is found wherever it stands.** -/
theorem value?_eq_of_perm (hnodup : (f.switches.map Prod.fst).Nodup)
    (h : f.switches.Perm f'.switches) (name : String) : f.value? name = f'.value? name := by
  have hlookup : f.switches.lookup name = f'.switches.lookup name := by
    ext b
    rw [lookup_eq_some_iff_mem hnodup, lookup_eq_some_iff_mem ((h.map _).nodup hnodup), h.mem_iff]
  rw [value?, value?, hlookup]

theorem has_eq_of_perm (h : f.switches.Perm f'.switches) (name : String) :
    f.has name = f'.has name :=
  h.any_eq

end Found

end Atelier.Command
