import Atelier.Proofs.Bundle.Carriable

/-!
# The grammar of a bundle's text

Every text is made of pieces with `###` between them, in one way only if no piece may hold `###` and
none but the last may end in `#`. A piece with one `##!` in it is the record of an entry. All other
pieces say nothing, the one in front of the first `###` being a piece like any other.

Since a piece is read by itself, what is wrong with one has no effect on the others, and the texts
of two bundles can be put together. The one thing to look out for is a `#` at the end of the first
text, which would be taken for a part of the marker.
-/

namespace Atelier.Bundle

open Text

variable {text front : String} {pieces : List String} {piece : String} {e : Entry} {b : Bundle}

/-! ## Pieces -/

/-- Whether a text is made of some pieces, with `###` between them and nowhere else. -/
structure MadeOf (text : String) (pieces : List String) : Prop where
  ne_nil : pieces ≠ []
  joined : recordMarker.intercalate pieces = text
  absent : ∀ piece ∈ pieces, ¬ recordMarker.toList <:+: piece.toList
  ends : ∀ piece ∈ pieces.dropLast, ¬ EndsInHash piece

/-- Whether a piece is the record of an entry: its path and its body with the one `##!` between
them. -/
structure IsRecordOf (piece : String) (e : Entry) : Prop where
  parts : piece = e.path ++ bodyMarker ++ e.body
  path_absent : ¬ bodyMarker.toList <:+: e.path.toList
  body_absent : ¬ bodyMarker.toList <:+: e.body.toList

/-- Whether a bundle is read from pieces: in order, one entry from every record, and nothing from
any other piece. -/
inductive ReadFrom : List String → Bundle → Prop
  | nil : ReadFrom [] []
  | record {piece : String} {e : Entry} {rest : List String} {b : Bundle} (h : IsRecordOf piece e)
      (hrest : ReadFrom rest b) : ReadFrom (piece :: rest) (e :: b)
  | other {piece : String} {rest : List String} {b : Bundle} (h : ∀ e, ¬ IsRecordOf piece e)
      (hrest : ReadFrom rest b) : ReadFrom (piece :: rest) b

/-- **The pieces that are found are those that the text is made of.** -/
theorem madeOf_iff : MadeOf text pieces ↔ Text.pieces recordMarker text = pieces := by
  rw [pieces_eq_iff, split_eq_iff recordMarker_ne_nil, isCut_iff, ← String.toList_intercalate,
    String.toList_inj, ← List.map_dropLast, List.forall_mem_map, List.forall_mem_map, Ne,
    List.map_eq_nil_iff]
  constructor
  · rintro ⟨hne, hjoined, habsent, hends⟩
    refine ⟨⟨hne, habsent, fun piece hpiece => closes_recordMarker_iff.2 ⟨?_, ?_⟩⟩, hjoined⟩
    · exact habsent piece (List.dropLast_subset _ hpiece)
    · exact hends piece hpiece
  · rintro ⟨⟨hne, habsent, hcloses⟩, hjoined⟩
    exact ⟨hne, hjoined, habsent, fun piece hpiece =>
      (closes_recordMarker_iff.1 (hcloses piece hpiece)).2⟩

/-! ## Entries -/

theorem isRecordOf_iff : IsRecordOf piece e ↔ decodePiece piece = some e := by
  rw [← @String.ofList_toList piece, decodePiece_eq_some_iff, record, String.ofList_toList]
  constructor
  · rintro ⟨rfl, hpath, hbody⟩
    exact ⟨by simp, hpath, hbody⟩
  · rintro ⟨hparts, hpath, hbody⟩
    exact ⟨String.toList_inj.1 (by simpa using hparts), hpath, hbody⟩

theorem readFrom_iff : ReadFrom pieces b ↔ pieces.filterMap decodePiece = b := by
  constructor
  · intro h
    induction h with
    | nil => rfl
    | record h _ ih => rw [List.filterMap_cons_some (isRecordOf_iff.1 h), ih]
    | other h _ ih =>
      rw [List.filterMap_cons_none, ih]
      exact Option.eq_none_iff_forall_ne_some.2 fun e he => h e (isRecordOf_iff.2 he)
  · rintro rfl
    induction pieces with
    | nil => exact .nil
    | cons piece rest ih =>
      cases hpiece : decodePiece piece with
      | some e =>
        rw [List.filterMap_cons_some hpiece]
        exact .record (isRecordOf_iff.2 hpiece) ih
      | none =>
        rw [List.filterMap_cons_none hpiece]
        refine .other (fun e he => ?_) ih
        rw [isRecordOf_iff.1 he] at hpiece
        cases hpiece

/-- **A text is read by its grammar.** It is made of pieces in exactly one way, and its bundle is
what is read from them: one entry from each record and nothing from any other piece. -/
theorem exists_madeOf_readFrom (text : String) :
    ∃ pieces, (∀ other, MadeOf text other ↔ other = pieces) ∧
      ∀ b, decode text = b ↔ ReadFrom pieces b := by
  refine ⟨Text.pieces recordMarker text, fun other => ?_, fun b => ?_⟩
  · rw [madeOf_iff, eq_comm]
  · rw [readFrom_iff, decode]

/-- What is in front of the first marker and what has two bodies says nothing. -/
example :
    decode "garbage###./ok.rs##!body###./bad.rs##!x##!y###no-body" = [⟨"./ok.rs", "body"⟩] := by
  decide

/-! ## Texts side by side -/

/-- All pieces of a text that does not end in `#` can stand in front of a marker. -/
theorem closes_of_mem_split (h : ¬ EndsInHash text) :
    ∀ piece ∈ split recordMarker.toList text.toList, Closes recordMarker.toList piece := by
  have hcut := isCut_iff.1 (isCut_split recordMarker_ne_nil text.toList)
  have hjoined := intercalate_split recordMarker_ne_nil text.toList
  generalize split recordMarker.toList text.toList = pieces at hcut hjoined ⊢
  obtain ⟨hne, habsent, hcloses⟩ := hcut
  obtain ⟨front, last, rfl⟩ := (List.eq_nil_or_concat' pieces).resolve_left hne
  rw [List.dropLast_concat] at hcloses
  refine List.forall_mem_append.2 ⟨hcloses, fun piece hpiece => ?_⟩
  obtain rfl := List.mem_singleton.1 hpiece
  -- Only the last piece ends where the text ends.
  have habsent := habsent piece (List.mem_append_right _ hpiece)
  refine closes_recordMarker_iff.2 ⟨habsent, fun hend => h ?_⟩
  obtain ⟨rest, hrest⟩ := suffix_intercalate recordMarker.toList piece front
  rw [EndsInHash, ← hjoined, ← hrest, List.getLast?_append, hend, Option.some_or]

theorem pieces_append (h : ¬ EndsInHash front) (back : String) :
    Text.pieces recordMarker (front ++ recordMarker ++ back) =
      Text.pieces recordMarker front ++ Text.pieces recordMarker back := by
  rw [Text.pieces, Text.pieces, Text.pieces, ← List.map_append, String.toList_append,
    String.toList_append, split_append_separator recordMarker_ne_nil (closes_of_mem_split h)]

theorem decode_append (h : ¬ EndsInHash front) (back : String) :
    decode (front ++ recordMarker ++ back) = decode front ++ decode back := by
  rw [decode, decode, decode, pieces_append h, List.filterMap_append]

/-- A marker in front of a text changes nothing: it ends an empty piece. -/
theorem decode_recordMarker_append (back : String) :
    decode (recordMarker ++ back) = decode back := by
  have hempty : ¬ EndsInHash "" := by decide
  have hnothing : decode "" = [] := by decide
  rw [← @String.empty_append recordMarker, decode_append hempty, hnothing, List.nil_append]

/-- **Damage stays where it is.** A text and another one with a marker between them are read each by
itself, whatever they hold, if the first does not end in `#`. So a piece that is no record takes its
entry away and no other one, and a text that starts with its own marker can be put behind another as
it is. -/
theorem decode_beside (h : ¬ EndsInHash front) :
    (∀ back, decode (front ++ recordMarker ++ back) = decode front ++ decode back) ∧
      (∀ damaged back, ¬ EndsInHash damaged →
        decode (front ++ recordMarker ++ damaged ++ recordMarker ++ back) =
          decode front ++ decode damaged ++ decode back) ∧
      ∀ back, recordMarker.toList <+: back.toList →
        decode (front ++ back) = decode front ++ decode back := by
  refine ⟨decode_append h, fun damaged back hdamaged => ?_, fun back hback => ?_⟩
  · have hfront : front ++ recordMarker ++ damaged ++ recordMarker ++ back =
        front ++ recordMarker ++ (damaged ++ recordMarker ++ back) := by simp [String.append_assoc]
    rw [hfront, decode_append h, decode_append hdamaged, List.append_assoc]
  · obtain ⟨rest, hrest⟩ := hback
    obtain rfl : recordMarker ++ .ofList rest = back :=
      String.toList_inj.1 (by rw [String.toList_append, String.toList_ofList, hrest])
    rw [decode_recordMarker_append, ← String.append_assoc, decode_append h]

/-- A record with two bodies between one that is good and one whose path starts with `#`. -/
theorem decode_beside_two_bodies :
    decode ("lost###./a.rs##!1" ++ recordMarker ++ "./b.rs##!2##!3" ++ recordMarker ++
      "#c.rs##!4#") = [⟨"./a.rs", "1"⟩, ⟨"#c.rs", "4#"⟩] := by
  have hfront : ¬ EndsInHash "lost###./a.rs##!1" := by decide
  have hdamaged : ¬ EndsInHash "./b.rs##!2##!3" := by decide
  rw [(decode_beside hfront).2.1 _ _ hdamaged]
  decide

end Atelier.Bundle
