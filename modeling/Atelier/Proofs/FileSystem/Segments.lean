import Atelier.FileSystem.Path
import Atelier.Proofs.Text.Cut
import Atelier.Proofs.Text.Lossy

/-!
# Segments of path texts

A path text is its segments with slashes between them, and putting one path text behind another puts
its segments behind those of the other. Only an empty segment at the border can get lost. The
segments of a text, as bytes, are the pieces of the text between its slashes.
-/

namespace Atelier.Path

open Text

variable {path base : Bytes} {parts more : List Bytes}

theorem slash_ne_nil : [slash] ≠ [] := List.cons_ne_nil _ _

/-! ## A path text and its segments -/

theorem segments_eq_iff :
    segments path = parts ↔ parts ≠ [] ∧ (∀ s ∈ parts, slash ∉ s) ∧ ofSegments parts = path := by
  rw [segments, split_eq_iff slash_ne_nil, isCut_singleton_iff, and_assoc, ofSegments]

theorem segments_ne_nil (path : Bytes) : segments path ≠ [] :=
  (segments_eq_iff.1 (Eq.refl (segments path))).1

theorem no_slash_of_mem_segments {s : Bytes} (h : s ∈ segments path) : slash ∉ s :=
  (segments_eq_iff.1 (Eq.refl (segments path))).2.1 s h

@[simp] theorem ofSegments_segments (path : Bytes) : ofSegments (segments path) = path :=
  (segments_eq_iff.1 (Eq.refl (segments path))).2.2

theorem segments_ofSegments (hne : parts ≠ []) (h : ∀ s ∈ parts, slash ∉ s) :
    segments (ofSegments parts) = parts :=
  segments_eq_iff.2 ⟨hne, h, rfl⟩

@[simp] theorem ofSegments_nil : ofSegments [] = [] := rfl

@[simp] theorem ofSegments_singleton (segment : Bytes) : ofSegments [segment] = segment :=
  List.intercalate_singleton

theorem ofSegments_cons (segment : Bytes) (h : parts ≠ []) :
    ofSegments (segment :: parts) = segment ++ slash :: ofSegments parts := by
  rw [ofSegments, List.intercalate_cons_of_ne_nil h, List.append_assoc]
  rfl

theorem ofSegments_append (h : parts ≠ []) (hmore : more ≠ []) :
    ofSegments (parts ++ more) = ofSegments parts ++ slash :: ofSegments more := by
  rw [ofSegments, intercalate_append h hmore, List.append_assoc]
  rfl

theorem segments_append_slash (front back : Bytes) :
    segments (front ++ slash :: back) = segments front ++ segments back := by
  refine segments_eq_iff.2 ⟨by simp [segments_ne_nil], ?_, ?_⟩
  · intro s hs
    rcases List.mem_append.1 hs with hs | hs
    · exact no_slash_of_mem_segments hs
    · exact no_slash_of_mem_segments hs
  · rw [ofSegments_append (segments_ne_nil _) (segments_ne_nil _), ofSegments_segments,
      ofSegments_segments]

theorem mem_ofSegments {b : UInt8} (h : b ∈ ofSegments parts) : b = slash ∨ ∃ s ∈ parts, b ∈ s := by
  induction parts with
  | nil => cases h
  | cons segment rest ih =>
    by_cases hrest : rest = []
    · subst hrest
      exact .inr ⟨segment, List.mem_singleton_self _, by simpa using h⟩
    · rw [ofSegments_cons segment hrest, List.mem_append, List.mem_cons] at h
      rcases h with h | h | h
      · exact .inr ⟨segment, List.mem_cons_self, h⟩
      · exact .inl h
      · rcases ih h with h | ⟨s, hs, h⟩
        · exact .inl h
        · exact .inr ⟨s, List.mem_cons_of_mem _ hs, h⟩

@[simp] theorem segments_nil : segments [] = [[]] := rfl

/-! ## One path text behind another -/

/-- The segments of a joined path are those of both, less an empty one at the border. -/
theorem segments_join (base path : Bytes) :
    ∃ front, segments (join base path) = front ++ segments path ∧
      (segments base = front ∨ segments base = front ++ [[]]) := by
  rw [join]
  split_ifs with hb
  · cases hlast : base.getLast? with
    | none =>
      obtain rfl := List.getLast?_eq_none_iff.1 hlast
      exact ⟨[], rfl, .inr rfl⟩
    | some b =>
      -- `base` brings its own slash, so its last segment is empty.
      obtain rfl : b = slash := by simpa [hlast] using hb
      obtain ⟨init, rfl⟩ := List.getLast?_eq_some_iff.1 hlast
      refine ⟨segments init, ?_, .inr (segments_append_slash init [])⟩
      rw [List.append_assoc, List.singleton_append, segments_append_slash]
  · exact ⟨segments base, segments_append_slash _ _, .inl rfl⟩

theorem hasNul_join (hbase : hasNul base = false) (hpath : hasNul path = false) :
    hasNul (join base path) = false := by
  simp only [hasNul, List.contains_eq_mem, decide_eq_false_iff_not] at hbase hpath ⊢
  rw [join]
  split_ifs
  · simp [hbase, hpath]
  · simp [hbase, hpath, slash]

theorem components_eq (path : Bytes) : components path = (segments path).filter (!isIdle ·) := rfl

@[simp] theorem components_join (base path : Bytes) :
    components (join base path) = components base ++ components path := by
  obtain ⟨front, hjoin, hbase⟩ := segments_join base path
  rw [components_eq, hjoin, List.filter_append, components_eq path, components_eq base]
  rcases hbase with hbase | hbase <;> simp [hbase, isIdle]

@[simp] theorem isIdle_up : isIdle up = false := by decide

theorem up_mem_components : up ∈ components path ↔ up ∈ segments path := by
  simp [components_eq]

/-! ## Parts -/

theorem root_mem_parts : .root ∈ Path.parts path ↔ path.head? = some slash := by
  have hname : ∀ s, partOf s ≠ .root := by
    intro s
    rw [partOf]
    split_ifs <;> simp
  rw [Path.parts]
  split_ifs <;> simp_all

theorem up_mem_parts : .up ∈ Path.parts path ↔ up ∈ segments path := by
  have hname : ∀ s, partOf s = .up ↔ s = up := by
    intro s
    rw [partOf]
    split_ifs <;> simp_all
  rw [← up_mem_components, Path.parts]
  split_ifs <;> simp [hname]

/-! ## The segments of a text -/

/-- A slash is a character by itself, and no other character has its byte. -/
theorem eq_slash_of_mem {c : Char} (h : slash ∈ String.utf8EncodeChar c) : c = '/' := by
  have hsingle : String.utf8EncodeChar c = String.utf8EncodeChar '/' :=
    utf8EncodeChar_of_mem (by decide) h
  have heq : Text.bytes (.ofList [c]) = Text.bytes (.ofList ['/']) := by
    rw [bytes_ofList, bytes_ofList, List.flatMap_singleton, List.flatMap_singleton, hsingle]
  have hlists := congrArg String.toList (bytes_injective heq)
  rw [String.toList_ofList, String.toList_ofList] at hlists
  exact (List.cons.inj hlists).1

theorem slash_mem_bytes_iff {s : String} : slash ∈ Text.bytes s ↔ '/' ∈ s.toList := by
  rw [bytes_eq, List.mem_flatMap]
  constructor
  · rintro ⟨c, hc, hslash⟩
    exact eq_slash_of_mem hslash ▸ hc
  · intro h
    exact ⟨'/', h, List.mem_singleton_self _⟩

theorem head?_bytes_eq_slash_iff {s : String} :
    (Text.bytes s).head? = some slash ↔ s.toList.head? = some '/' := by
  rw [bytes_eq]
  cases s.toList with
  | nil => simp
  | cons c rest =>
    rw [List.flatMap_cons, List.head?_append_of_ne_nil _ String.utf8EncodeChar_ne_nil,
      List.head?_cons, Option.some.injEq]
    constructor
    · intro h
      exact eq_slash_of_mem (List.mem_of_head? h)
    · rintro rfl
      rfl

theorem ofSegments_map_bytes (pieces : List String) :
    ofSegments (pieces.map Text.bytes) = Text.bytes ("/".intercalate pieces) := by
  induction pieces with
  | nil => rfl
  | cons piece rest ih =>
    by_cases hrest : rest = []
    · subst hrest
      simp
    · have hslash : Text.bytes "/" = [slash] := rfl
      rw [List.map_cons, ofSegments_cons _ (by simpa using hrest), ih,
        String.intercalate_cons_of_ne_nil hrest, bytes_append, bytes_append, hslash,
        List.append_assoc]
      rfl

/-- **The segments of a text are its pieces between slashes.** -/
theorem segments_bytes (s : String) :
    segments (Text.bytes s) = (Text.pieces "/" s).map Text.bytes := by
  have hslash : "/".toList = ['/'] := rfl
  obtain ⟨hcut, hjoined⟩ := (split_eq_iff (by simp)).1 (pieces_eq_iff.1 (Eq.refl (pieces "/" s)))
  rw [hslash, isCut_singleton_iff, List.forall_mem_map] at hcut
  rw [← String.toList_intercalate, String.toList_inj] at hjoined
  refine segments_eq_iff.2 ⟨by simpa using hcut.1, ?_, ?_⟩
  · intro segment hsegment
    obtain ⟨piece, hpiece, rfl⟩ := List.mem_map.1 hsegment
    rw [slash_mem_bytes_iff]
    exact hcut.2 piece hpiece
  · rw [ofSegments_map_bytes, hjoined]

theorem up_mem_segments_bytes {s : String} :
    up ∈ segments (Text.bytes s) ↔ ".." ∈ Text.pieces "/" s := by
  rw [segments_bytes]
  exact List.mem_map_of_injective fun _ _ => bytes_injective

end Atelier.Path
