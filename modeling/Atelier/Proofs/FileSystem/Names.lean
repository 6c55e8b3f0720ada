import Atelier.FileSystem.Name
import Atelier.Proofs.FileSystem.Segments

/-!
# Names read as text

A name is bytes, and read as text it can change and become the text of another name. What is read is
a segment of a path text all the same: it is not empty, has no slash and is neither `.` nor `..`,
since no replacement character was read of any of these. So the text of a location is cut into the
texts of its names, whatever they are (`Location.pieces_text`).

A location whose names are texts is its text (`Location.bytes_text`). A dot is read as a dot, so a
name keeps its extension (`Name.extension?_of_text`).
-/

namespace Atelier

open Text

namespace Name

variable {n : Name} {s : String}

theorem bytes_injective : Function.Injective Name.bytes := fun _ _ => Name.ext

/-- A name that is a text is read as this text. -/
theorem text_of_bytes (h : n.bytes = Text.bytes s) : n.text = s := by
  rw [text, h, lossy_bytes]

theorem bytes_text (h : IsText n.bytes) : Text.bytes n.text = n.bytes :=
  isText_iff.1 h

theorem text_ne_empty (n : Name) : n.text ≠ "" :=
  fun h => n.ne_nil (lossy_eq_empty_iff.1 h)

theorem toList_text_ne_nil (n : Name) : n.text.toList ≠ [] :=
  String.toList_eq_nil_iff.not.2 n.text_ne_empty

theorem slash_not_mem_text (n : Name) : '/' ∉ n.text.toList := by
  intro h
  have hslash : String.utf8EncodeChar '/' <:+: n.bytes := infix_of_mem_lossy h (by decide)
  exact n.no_slash (hslash.subset (List.mem_singleton_self Path.slash))

/-- A text without replacement characters is read of its own bytes only. -/
theorem bytes_of_text (hs : replacement ∉ s.toList) (h : n.text = s) : n.bytes = Text.bytes s := by
  subst h
  exact (bytes_lossy hs).symm

theorem text_ne_current (n : Name) : n.text ≠ "." :=
  fun h => n.ne_current (bytes_of_text (by decide) h)

theorem text_ne_up (n : Name) : n.text ≠ ".." :=
  fun h => n.ne_up (bytes_of_text (by decide) h)

theorem isIdle_text (n : Name) : Path.isIdle n.text = false := by
  have hempty : Text.bytes n.text ≠ [] := mt bytes_eq_nil_iff.1 n.text_ne_empty
  have hcurrent : Text.bytes n.text ≠ Path.current :=
    fun h => n.text_ne_current (Text.bytes_injective h)
  simp [Path.isIdle, hempty, hcurrent]

/-- A name that is a segment of a text is a piece of the text. -/
theorem text_mem_pieces (h : n.bytes ∈ Path.segments s) :
    n.text ∈ Text.pieces "/" s ∧ IsText n.bytes := by
  rw [Path.segments_bytes] at h
  obtain ⟨piece, hpiece, hbytes⟩ := List.mem_map.1 h
  exact ⟨text_of_bytes hbytes.symm ▸ hpiece, piece, hbytes.symm⟩

/-! ## Extensions -/

/-- **The extension of a name** stands behind its last dot, and something stands in front of it. -/
theorem extension?_eq_some_iff {extension : Bytes} :
    n.extension? = some extension ↔
      0x2e ∉ extension ∧ ∃ stem, stem ≠ [] ∧ n.bytes = stem ++ 0x2e :: extension := by
  constructor
  · intro h
    have hparts := List.takeWhile_append_dropWhile (p := (· ≠ 0x2e)) (l := n.bytes.reverse)
    rw [extension?] at h
    split at h
    · cases h
    · cases h
    · rename_i dot front hne hdrop
      have hdot : dot = 0x2e := by
        have hne : n.bytes.reverse.dropWhile (· ≠ 0x2e) ≠ [] := hdrop ▸ List.cons_ne_nil _ _
        have hhead := List.head_dropWhile_not _ hne
        simp only [hdrop, List.head_cons] at hhead
        simpa using hhead
      have habsent : 0x2e ∉ n.bytes.reverse.takeWhile (· ≠ 0x2e) := by
        intro hmem
        simpa using List.all_eq_true.1 List.all_takeWhile _ hmem
      rw [hdrop] at hparts
      obtain rfl := Option.some.inj h
      generalize n.bytes.reverse.takeWhile (· ≠ 0x2e) = behind at hparts habsent
      refine ⟨by simpa using habsent, front.reverse, by simpa using hne, ?_⟩
      rw [← List.reverse_reverse n.bytes, ← hparts, hdot]
      simp
  · rintro ⟨hdot, stem, hstem, hbytes⟩
    have hreverse : n.bytes.reverse = extension.reverse ++ 0x2e :: stem.reverse := by
      rw [hbytes]
      simp
    have hbehind : ∀ b ∈ extension.reverse, decide (b ≠ 0x2e) = true := by
      intro b hb
      rw [decide_eq_true_iff]
      rintro rfl
      exact hdot (List.mem_reverse.1 hb)
    obtain ⟨b, front, hfront⟩ := List.exists_cons_of_ne_nil (List.reverse_ne_nil_iff.2 hstem)
    rw [extension?, hreverse, List.dropWhile_append_of_pos hbehind,
      List.takeWhile_append_of_pos hbehind, hfront]
    simp

/-- Reading a name as text leaves its extension, if that is a text. -/
theorem extension?_of_text {m : Name} {extension : String} (hm : m.bytes = Text.bytes n.text)
    (h : n.extension? = some (Text.bytes extension)) :
    m.extension? = some (Text.bytes extension) := by
  obtain ⟨hdot, stem, hstem, hbytes⟩ := extension?_eq_some_iff.1 h
  refine extension?_eq_some_iff.2 ⟨hdot, Text.bytes (lossy stem), ?_, ?_⟩
  · rw [Ne, bytes_eq_nil_iff, lossy_eq_empty_iff]
    exact hstem
  · have hencoded : String.utf8EncodeChar '.' = [0x2e] := rfl
    have htext := lossy_append_ascii hencoded (by decide) stem (Text.bytes extension)
    rw [lossy_bytes] at htext
    rw [hm, text, hbytes, bytes_eq, htext, List.flatMap_append, List.flatMap_cons, hencoded,
      ← bytes_eq, ← bytes_eq, List.singleton_append]

end Name

namespace Location

variable {k l : Location} {n : Name}

/-! ## The path text of a location -/

theorem segments_path (hl : l ≠ []) : Path.segments l.path = l.map Name.bytes := by
  refine Path.segments_ofSegments (by simpa using hl) fun s hs => ?_
  obtain ⟨n, -, rfl⟩ := List.mem_map.1 hs
  exact n.no_slash

theorem map_bytes_inj : k.map Name.bytes = l.map Name.bytes ↔ k = l :=
  (List.map_injective_iff.2 Name.bytes_injective).eq_iff

theorem hasNul_path (l : Location) : Path.hasNul l.path = false := by
  rw [Path.hasNul, List.contains_eq_mem, decide_eq_false_iff_not]
  intro h
  rcases Path.mem_ofSegments h with h | ⟨s, hs, h⟩
  · cases h
  · obtain ⟨n, -, rfl⟩ := List.mem_map.1 hs
    exact n.no_nul h

/-! ## The text of a location -/

theorem bytes_text_eq_ofSegments (l : Location) :
    Text.bytes l.text = Path.ofSegments (l.map fun n => Text.bytes n.text) := by
  have hmap : (l.map fun n => Text.bytes n.text) = (l.map Name.text).map Text.bytes := by
    rw [List.map_map]
    rfl
  rw [text, hmap, Path.ofSegments_map_bytes]

/-- **The text of a location is cut into the texts of its names.** -/
theorem segments_text (hl : l ≠ []) :
    Path.segments l.text = l.map fun n => Text.bytes n.text := by
  rw [bytes_text_eq_ofSegments]
  refine Path.segments_ofSegments (by simpa using hl) fun s hs => ?_
  obtain ⟨n, -, rfl⟩ := List.mem_map.1 hs
  exact mt Path.slash_mem_bytes_iff.1 n.slash_not_mem_text

theorem pieces_text (hl : l ≠ []) : Text.pieces "/" l.text = l.map Name.text := by
  have hsegments := Path.segments_bytes l.text
  rw [segments_text hl] at hsegments
  refine List.map_injective_iff.2 (fun _ _ => bytes_injective) ?_
  rw [← hsegments, List.map_map]
  rfl

/-- The text of a location leads through the texts of its names. -/
theorem components_text (hl : l ≠ []) :
    Path.components l.text = l.map fun n => Text.bytes n.text := by
  rw [Path.components_eq, segments_text hl, List.filter_eq_self]
  intro s hs
  obtain ⟨n, -, rfl⟩ := List.mem_map.1 hs
  simp [n.isIdle_text]

theorem map_bytes_text (h : ∀ n ∈ l, IsText n.bytes) :
    (l.map fun n => Text.bytes n.text) = l.map Name.bytes :=
  List.map_congr_left fun n hn => Name.bytes_text (h n hn)

/-- A text leads only to names that are texts. -/
theorem isText_of_components {s : String} (h : l.map Name.bytes = Path.components s) :
    ∀ n ∈ l, IsText n.bytes := by
  intro n hn
  have hmem : n.bytes ∈ Path.components s := h ▸ List.mem_map_of_mem hn
  exact (Name.text_mem_pieces (List.mem_of_mem_filter hmem)).2

theorem bytes_text_of_forall (h : ∀ n ∈ l, IsText n.bytes) : Text.bytes l.text = l.path := by
  rw [bytes_text_eq_ofSegments, map_bytes_text h, path]

theorem isText_path_iff : IsText l.path ↔ ∀ n ∈ l, IsText n.bytes := by
  constructor
  · rintro ⟨s, hs⟩ n hn
    have hmem : n.bytes ∈ Path.segments l.path := by
      rw [segments_path (List.ne_nil_of_mem hn)]
      exact List.mem_map_of_mem hn
    rw [hs, Path.segments_bytes] at hmem
    obtain ⟨piece, -, hpiece⟩ := List.mem_map.1 hmem
    exact ⟨piece, hpiece.symm⟩
  · intro h
    exact ⟨l.text, (bytes_text_of_forall h).symm⟩

/-- A location whose names are texts is its text. -/
theorem bytes_text (h : IsText l.path) : Text.bytes l.text = l.path :=
  bytes_text_of_forall (isText_path_iff.1 h)

end Location

end Atelier
