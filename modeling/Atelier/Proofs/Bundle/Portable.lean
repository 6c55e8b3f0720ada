import Atelier.FileSystem.Overview
import Atelier.Proofs.Bundle.Collected
import Atelier.Proofs.Bundle.Shift
import Atelier.Proofs.Bundle.Target
import Atelier.Proofs.FileSystem.Names

/-!
# Files that a bundle can carry

Which files can be packaged so that they come back, said of the files themselves. A file whose name
is no text cannot come back, since a bundle holds only texts. The path of any other file in a bundle
is `./` and its names, and the `./` neither makes a marker nor hides one. So it is a matter of the
names and the content, and of which file is the last one.
-/

namespace Atelier

open Text

namespace Location

variable {l : Location} {n : Name}

/-- The text of a location ends as its last name does. -/
theorem getLast?_text (hl : l.getLast? = some n) :
    l.text.toList.getLast? = n.text.toList.getLast? := by
  have hne : l ≠ [] := by
    rintro rfl
    simp at hl
  refine getLast?_of_split (show "/".toList ≠ [] by simp) ?_ n.toList_text_ne_nil
  rw [pieces_eq_iff.1 (pieces_text hne), List.getLast?_map, List.getLast?_map, hl]
  rfl

/-- What has no slash can be found in the text of a location only inside one of its names. -/
theorem infix_text_iff {separator : List Char} (hslash : '/' ∉ separator) (hne : separator ≠ []) :
    separator <:+: l.text.toList ↔ ∃ n ∈ l, separator <:+: n.text.toList := by
  induction l with
  | nil => simp [text, hne]
  | cons n l ih =>
    cases l with
    | nil => simp [text]
    | cons m l =>
      have htext : (text (n :: m :: l)).toList =
          n.text.toList ++ '/' :: (text (m :: l)).toList := by
        simp [text, String.intercalate_cons_of_ne_nil]
      rw [htext, infix_append_cons_iff hslash, ih]
      simp

end Location

namespace Bundle

variable {t : FileTree} {r l : Location} {extension : String} {found : List (Location × String)}
  {w : Location × String}

/-! ## The entry of a file -/

theorem toList_entryPath (l : Location) : (entryPath l).toList = '.' :: '/' :: l.text.toList := by
  rw [entryPath, String.toList_append]
  rfl

theorem stripCurrent_entryPath (l : Location) : stripCurrent (entryPath l) = l.text := by
  rw [stripCurrent, toList_entryPath]
  exact String.ofList_toList

theorem startsPlain_entryAt (w : Location × String) : StartsPlain (entryAt w).path :=
  ⟨_, toList_entryPath w.1⟩

/-- An entry is for the file that the texts of the names lead to. -/
theorem names_entryAt (hw : w.1 ≠ []) :
    (entryAt w).names = w.1.map fun n => Text.bytes n.text := by
  rw [Entry.names, entryAt, stripCurrent_entryPath, Location.components_text hw]

/-- A path text starts like its first name, so with no slash. -/
theorem head?_text_ne_slash (hl : l ≠ []) : l.text.toList.head? ≠ some '/' := by
  obtain ⟨n, l, rfl⟩ := List.exists_cons_of_ne_nil hl
  have hstart : ∃ rest, (Location.text (n :: l)).toList = n.text.toList ++ rest := by
    cases l with
    | nil => exact ⟨[], by simp [Location.text]⟩
    | cons m l => exact ⟨'/' :: (Location.text (m :: l)).toList,
        by simp [Location.text, String.intercalate_cons_of_ne_nil]⟩
  obtain ⟨rest, hrest⟩ := hstart
  rw [hrest, List.head?_append_of_ne_nil _ n.toList_text_ne_nil]
  exact fun h => n.slash_not_mem_text (List.mem_of_head? h)

theorem isSafe_entryAt (hw : w.1 ≠ []) : IsSafe (entryAt w) := by
  rw [isSafe_iff, entryAt, stripCurrent_entryPath, Location.segments_text hw, Ne, Ne,
    Path.head?_bytes_eq_slash_iff]
  refine ⟨?_, head?_text_ne_slash hw, ?_⟩
  · intro hempty
    have hpieces := Location.segments_text hw
    obtain ⟨n, l, hl⟩ := List.exists_cons_of_ne_nil hw
    have hfirst : [] = Text.bytes n.text := by
      rw [hempty, hl] at hpieces
      exact (List.cons.inj hpieces).1
    exact n.text_ne_empty (bytes_eq_nil_iff.1 hfirst.symm)
  · rw [List.mem_map]
    rintro ⟨n, -, hn⟩
    exact n.text_ne_up (bytes_injective hn)

/-- Only what holds a dot or a slash can be found in `./` or across it. -/
theorem infix_entryPath_iff {separator : List Char} (hdot : '.' ∉ separator)
    (hslash : '/' ∉ separator) (hne : separator ≠ []) :
    separator <:+: (entryPath l).toList ↔ separator <:+: l.text.toList := by
  rw [toList_entryPath, ← List.nil_append ('.' :: _), infix_append_cons_iff hdot,
    ← List.nil_append ('/' :: _), infix_append_cons_iff hslash]
  simp [hne]

theorem isUnmarked_entryPath : IsUnmarked (entryPath l) ↔ IsUnmarked l.text := by
  rw [IsUnmarked, IsUnmarked, infix_entryPath_iff (by decide) (by decide) recordMarker_ne_nil,
    infix_entryPath_iff (by decide) (by decide) bodyMarker_ne_nil]

theorem endsInHash_entryPath : EndsInHash (entryPath l) ↔ EndsInHash l.text := by
  rw [EndsInHash, EndsInHash, toList_entryPath]
  cases h : l.text.toList with
  | nil => simp
  | cons c rest => simp [List.getLast?_cons_cons]

theorem isClear_entryAt_iff :
    IsClear (entryAt w) ↔ IsUnmarked w.1.text ∧ ¬ EndsInHash w.1.text ∧ IsUnmarked w.2 := by
  constructor
  · intro h
    exact ⟨isUnmarked_entryPath.1 h.path_unmarked, mt endsInHash_entryPath.2 h.path_end,
      h.body_unmarked⟩
  · rintro ⟨hpath, hend, hbody⟩
    exact ⟨isUnmarked_entryPath.2 hpath, mt endsInHash_entryPath.1 hend, hbody⟩

/-! ## The bundle of the files below a root -/

/-- In a list in strict order everything but the last one has something behind it. -/
theorem mem_dropLast_iff (hsorted : found.Pairwise fun v w => compare v.1 w.1 = .lt) :
    w ∈ found.dropLast ↔ w ∈ found ∧ ∃ v ∈ found, compare w.1 v.1 = .lt := by
  rcases List.eq_nil_or_concat' found with rfl | ⟨init, last, rfl⟩
  · simp
  · obtain ⟨-, -, hlast⟩ := List.pairwise_append.1 hsorted
    have hbefore : ∀ v ∈ init, compare v.1 last.1 = .lt := fun v hv => hlast v hv last (by simp)
    rw [List.dropLast_concat]
    constructor
    · intro hw
      exact ⟨List.mem_append_left _ hw, last, by simp, hbefore w hw⟩
    · rintro ⟨hw, v, hv, hlt⟩
      rcases List.mem_append.1 hw with hw | hw
      · exact hw
      · obtain rfl := List.mem_singleton.1 hw
        rcases List.mem_append.1 hv with hv | hv
        · simp [Std.OrientedCmp.gt_of_lt (hbefore v hv)] at hlt
        · obtain rfl := List.mem_singleton.1 hv
          simp [Std.ReflCmp.compare_self] at hlt

/-- Whether the files to be collected below a root can be packaged so that they come back. -/
structure Portable (t : FileTree) (r : Location) (extension : String) : Prop where
  path_unmarked : ∀ l content, IsCollectable t r extension l content → IsUnmarked l.text
  path_end : ∀ l content, IsCollectable t r extension l content → ¬ EndsInHash l.text
  body_unmarked : ∀ l (body : String), IsCollectable t r extension l body.toByteArray →
    IsUnmarked body
  body_end : ∀ l (body : String) l' content', IsCollectable t r extension l body.toByteArray →
    IsCollectable t r extension l' content' → compare l l' = .lt → ¬ EndsInHash body

/-- Files come back when the bundle of their entries can be carried. -/
theorem Collected.portable_iff (h : Collected t r extension found) :
    Portable t r extension ↔ Carriable (found.map entryAt) := by
  constructor
  · intro hportable
    refine ⟨?_, ?_⟩
    · rintro e he
      obtain ⟨⟨k, text⟩, hk, rfl⟩ := List.mem_map.1 he
      have hk := (h.mem_iff k text).1 hk
      exact isClear_entryAt_iff.2 ⟨hportable.path_unmarked k _ hk, hportable.path_end k _ hk,
        hportable.body_unmarked k text hk⟩
    · rw [← List.map_dropLast]
      rintro e he
      obtain ⟨⟨k, text⟩, hk, rfl⟩ := List.mem_map.1 he
      obtain ⟨hk, ⟨k', text'⟩, hk', hlt⟩ := (mem_dropLast_iff h.sorted).1 hk
      exact hportable.body_end k text k' _ ((h.mem_iff k text).1 hk) ((h.mem_iff k' text').1 hk')
        hlt
  · intro hcarriable
    have hclear : ∀ k (text : String), IsCollectable t r extension k text.toByteArray →
        IsClear (entryAt (k, text)) := fun k text hk =>
      hcarriable.clear _ (List.mem_map_of_mem ((h.mem_iff k text).2 hk))
    refine ⟨fun k content hk => ?_, fun k content hk => ?_, fun k text hk => ?_,
      fun k text k' content hk hk' hlt => ?_⟩
    · obtain ⟨text, rfl⟩ := h.isText k content hk
      exact (isClear_entryAt_iff.1 (hclear k text hk)).1
    · obtain ⟨text, rfl⟩ := h.isText k content hk
      exact (isClear_entryAt_iff.1 (hclear k text hk)).2.1
    · exact (hclear k text hk).body_unmarked
    · obtain ⟨text', rfl⟩ := h.isText k' content hk'
      have hmem : (k, text) ∈ found.dropLast := (mem_dropLast_iff h.sorted).2
        ⟨(h.mem_iff k text).2 hk, (k', text'), (h.mem_iff k' text').2 hk', hlt⟩
      refine hcarriable.body_end (entryAt (k, text)) ?_
      rw [← List.map_dropLast]
      exact List.mem_map_of_mem hmem

end Bundle

end Atelier
