import Atelier.Proofs.Bundle.Marker
import Mathlib.Tactic.TFAE

/-!
# What the bundle format can carry

The format has no escapes, so not every bundle comes back from its text. Those that do are known:
no marker may be found in a path or a body, and no `#` may stand where it would be taken for the
start of the `###` that follows, at the end of a path or of a body with another entry behind it.
These are also all the bundles that any text stands for.
-/

namespace Atelier.Bundle

open Text

variable {b rest : Bundle} {e : Entry} {pieces : List (List Char)}

/-- An entry as characters, without the marker in front of it. -/
def record (e : Entry) : List Char :=
  e.path.toList ++ bodyMarker.toList ++ e.body.toList

/-- Whether an entry comes back from its record. -/
structure IsClear (e : Entry) : Prop where
  path_unmarked : IsUnmarked e.path
  path_end : ¬ EndsInHash e.path
  body_unmarked : IsUnmarked e.body

/-- Whether a bundle comes back from its text. -/
structure Carriable (b : Bundle) : Prop where
  clear : ∀ e ∈ b, IsClear e
  body_end : ∀ e ∈ b.dropLast, ¬ EndsInHash e.body

instance : DecidablePred IsClear := fun e =>
  decidable_of_iff (IsUnmarked e.path ∧ ¬ EndsInHash e.path ∧ IsUnmarked e.body)
    ⟨fun h => ⟨h.1, h.2.1, h.2.2⟩, fun h => ⟨h.path_unmarked, h.path_end, h.body_unmarked⟩⟩

instance : DecidablePred Carriable := fun b =>
  decidable_of_iff ((∀ e ∈ b, IsClear e) ∧ ∀ e ∈ b.dropLast, ¬ EndsInHash e.body)
    ⟨fun h => ⟨h.1, h.2⟩, fun h => ⟨h.clear, h.body_end⟩⟩

theorem carriable_nil : Carriable [] :=
  ⟨by simp, by simp⟩

theorem carriable_singleton : Carriable [e] ↔ IsClear e :=
  ⟨fun h => h.clear e List.mem_cons_self, fun h => ⟨by simpa using h, by simp⟩⟩

theorem carriable_cons (hr : rest ≠ []) :
    Carriable (e :: rest) ↔ IsClear e ∧ ¬ EndsInHash e.body ∧ Carriable rest := by
  constructor
  · rintro ⟨hclear, hend⟩
    rw [List.dropLast_cons_of_ne_nil hr] at hend
    rw [List.forall_mem_cons] at hclear hend
    exact ⟨hclear.1, hend.1, hclear.2, hend.2⟩
  · rintro ⟨he, hend, hrest⟩
    refine ⟨List.forall_mem_cons.2 ⟨he, hrest.clear⟩, ?_⟩
    rw [List.dropLast_cons_of_ne_nil hr]
    exact List.forall_mem_cons.2 ⟨hend, hrest.body_end⟩

/-! ## One record -/

/-- A record holds no `###` if none was in its parts and none began at the end of its path. -/
theorem recordMarker_not_infix_record_iff :
    ¬ recordMarker.toList <:+: record e ↔
      ¬ recordMarker.toList <:+: e.path.toList ∧ ¬ EndsInHash e.path ∧
        ¬ recordMarker.toList <:+: e.body.toList := by
  rw [record, recordMarker_infix_record_iff, not_or, not_or, and_assoc]
  rfl

theorem closes_record_iff :
    Closes recordMarker.toList (record e) ↔
      ¬ recordMarker.toList <:+: record e ∧ ¬ EndsInHash e.body := by
  rw [closes_recordMarker_iff, Ne, record, getLast?_record]
  rfl

/-- A piece is read as the entry whose record it is, if its parts hold no `##!`. -/
theorem decodePiece_eq_some_iff {piece : List Char} :
    decodePiece (.ofList piece) = some e ↔
      piece = record e ∧ ¬ bodyMarker.toList <:+: e.path.toList ∧
        ¬ bodyMarker.toList <:+: e.body.toList := by
  rw [record, ← split_bodyMarker_eq_pair_iff]
  unfold decodePiece pieces
  rw [String.toList_ofList]
  match split bodyMarker.toList piece with
  | [] => simp
  | [_] => simp
  | [path, body] => cases e; simp [← String.toList_inj]
  | _ :: _ :: _ :: _ => simp

/-- What is read from a piece without `###` is clear. -/
theorem isClear_of_decodePiece {piece : List Char} (hpiece : ¬ recordMarker.toList <:+: piece)
    (h : decodePiece (.ofList piece) = some e) : IsClear e := by
  obtain ⟨rfl, hpath, hbody⟩ := decodePiece_eq_some_iff.1 h
  obtain ⟨hpath', hend, hbody'⟩ := recordMarker_not_infix_record_iff.1 hpiece
  exact ⟨⟨hpath', hpath⟩, hend, ⟨hbody', hbody⟩⟩

theorem IsClear.decodePiece_record (h : IsClear e) : decodePiece (.ofList (record e)) = some e :=
  decodePiece_eq_some_iff.2 ⟨rfl, h.path_unmarked.2, h.body_unmarked.2⟩

theorem IsClear.recordMarker_absent (h : IsClear e) : ¬ recordMarker.toList <:+: record e :=
  recordMarker_not_infix_record_iff.2 ⟨h.path_unmarked.1, h.path_end, h.body_unmarked.1⟩

/-! ## All records -/

/-- The entries that are read from pieces. -/
def decodePieces (pieces : List (List Char)) : Bundle :=
  pieces.filterMap fun piece => decodePiece (.ofList piece)

theorem decodePieces_cons_none {piece : List Char} (h : decodePiece (.ofList piece) = none) :
    decodePieces (piece :: pieces) = decodePieces pieces :=
  List.filterMap_cons_none h

theorem decodePieces_cons_some {piece : List Char} (h : decodePiece (.ofList piece) = some e) :
    decodePieces (piece :: pieces) = e :: decodePieces pieces :=
  List.filterMap_cons_some h

theorem decode_eq_decodePieces (text : String) :
    decode text = decodePieces (split recordMarker.toList text.toList) := by
  rw [decode, pieces, List.filterMap_map]
  rfl

/-- A text of entries is their records, each behind a marker. -/
theorem toList_encode (b : Bundle) :
    (encode b).toList = recordMarker.toList.intercalate ([] :: b.map record) := by
  induction b with
  | nil => rfl
  | cons e rest ih =>
    rw [encode, String.toList_append, ih, List.map_cons, List.intercalate_cons_cons]
    cases rest <;>
      simp [encodeEntry, record, List.intercalate_cons_cons]

theorem Carriable.isCut_records (h : Carriable b) :
    IsCut recordMarker.toList ([] :: b.map record) := by
  -- The induction is on the records alone: the empty piece is only in front of the first one.
  suffices records : b ≠ [] → IsCut recordMarker.toList (b.map record) by
    by_cases hb : b = []
    · subst hb
      simp [IsCut, toList_recordMarker]
    · rw [isCut_cons (by simpa using hb)]
      exact ⟨closes_nil recordMarker_ne_nil, records hb⟩
  intro hb
  induction b with
  | nil => exact absurd rfl hb
  | cons e rest ih =>
    by_cases hr : rest = []
    · subst hr
      exact (carriable_singleton.1 h).recordMarker_absent
    · obtain ⟨he, hend, hrest⟩ := (carriable_cons hr).1 h
      rw [List.map_cons, isCut_cons (by simpa using hr), closes_record_iff]
      exact ⟨⟨he.recordMarker_absent, hend⟩, ih hrest hr⟩

theorem decodePieces_map_record (h : ∀ e ∈ b, IsClear e) : decodePieces (b.map record) = b := by
  induction b with
  | nil => rfl
  | cons e rest ih =>
    rw [List.forall_mem_cons] at h
    rw [List.map_cons, decodePieces_cons_some h.1.decodePiece_record, ih h.2]

theorem Carriable.decode_encode (h : Carriable b) : decode (encode b) = b := by
  rw [decode_eq_decodePieces, toList_encode, split_intercalate recordMarker_ne_nil h.isCut_records]
  exact decodePieces_map_record h.clear

/-- What is read from the cut of a text can be carried: only the last piece may end in `#`. -/
theorem carriable_decodePieces (h : IsCut recordMarker.toList pieces) :
    Carriable (decodePieces pieces) := by
  induction pieces with
  | nil => exact h.elim
  | cons piece later ih =>
    cases hd : decodePiece (.ofList piece) with
    | none =>
      rw [decodePieces_cons_none hd]
      cases later with
      | nil => exact carriable_nil
      | cons next later => exact ih h.2
    | some e =>
      rw [decodePieces_cons_some hd]
      cases later with
      | nil => exact carriable_singleton.2 (isClear_of_decodePiece h hd)
      | cons next later =>
        have hclear := isClear_of_decodePiece h.1.absent hd
        have hcloses := h.1
        rw [(decodePiece_eq_some_iff.1 hd).1, closes_record_iff] at hcloses
        have hrest := ih h.2
        -- When no later piece is an entry, this one is the last and its body may end in anything.
        by_cases hr : decodePieces (next :: later) = []
        · rw [hr]
          exact carriable_singleton.2 hclear
        · exact (carriable_cons hr).2 ⟨hclear, hcloses.2, hrest⟩

theorem carriable_decode (text : String) : Carriable (decode text) := by
  rw [decode_eq_decodePieces]
  exact carriable_decodePieces (isCut_split recordMarker_ne_nil _)

/-- **What the format carries is exactly known**: the bundles that come back from their text are the
bundles that some text stands for, and are those with no marker inside them or across a border. -/
theorem decode_encode_tfae (b : Bundle) :
    [decode (encode b) = b, ∃ text, b = decode text, Carriable b].TFAE ∧
      ∀ text, decode (encode (decode text)) = decode text := by
  refine ⟨?_, fun text => (carriable_decode text).decode_encode⟩
  tfae_have 1 → 2 := fun h => ⟨encode b, h.symm⟩
  tfae_have 2 → 3 := by
    rintro ⟨text, rfl⟩
    exact carriable_decode text
  tfae_have 3 → 1 := Carriable.decode_encode
  tfae_finish

end Atelier.Bundle
