import Atelier.Proofs.Bundle.Spread
import Mathlib.Data.List.Perm.Subperm

/-!
# Packaging and unpacking

What was packaged comes back from its text exactly when no marker can be found where none was
meant. When it does not come back, the text is read as other entries than were written. Either one
of these has a marker in its place, or they are the entries that were written with some `#` moved
from bodies to paths. Then they have fewer characters in their bodies than the files had, so
whatever their paths are, they cannot make the same files.
-/

namespace Atelier

open FileTree Atelier.Action FileAction Text

namespace Bundle

variable {t t' : FileTree} {root base : Bytes} {extension text path : String}
  {r p k : Location} {e : Entry} {b b' : Bundle}
  {w : Location × String} {found : List (Location × String)}

/-! ## An entry that makes a file -/

theorem stripCurrent_suffix (path : String) : (stripCurrent path).toList <:+ path.toList := by
  rw [stripCurrent]
  split
  · rename_i rest hpath
    rw [hpath, String.toList_ofList]
    exact ⟨['.', '/'], rfl⟩
  · exact List.suffix_refl _

theorem WrittenAt.isText (h : WrittenAt e k) : IsText k.path :=
  Location.isText_path_iff.2 (Location.isText_of_components h.names)

/-- What makes a file has a path that ends as the place of the file does. -/
theorem WrittenAt.getLast?_path (h : WrittenAt e k) :
    e.path.toList.getLast? = k.text.toList.getLast? := by
  obtain ⟨n, hk, hsegments⟩ := h.last
  have hn := n.toList_text_ne_nil
  have hpieces : (Text.pieces "/" (stripCurrent e.path)).getLast? = some n.text := by
    rw [Path.segments_bytes, List.getLast?_map, Option.map_eq_some_iff] at hsegments
    obtain ⟨piece, hpiece, hbytes⟩ := hsegments
    rw [hpiece, Name.text_of_bytes hbytes.symm]
  have hstrip : (stripCurrent e.path).toList.getLast? = n.text.toList.getLast? := by
    refine getLast?_of_split (show "/".toList ≠ [] by simp) ?_ hn
    rw [pieces_eq_iff.1 rfl, List.getLast?_map, hpieces]
    rfl
  obtain ⟨front, hfront⟩ := stripCurrent_suffix e.path
  rw [Location.getLast?_text hk, ← hstrip, ← hfront]
  refine List.getLast?_append_of_ne_nil _ fun hnil => hn ?_
  rw [hnil, List.getLast?_nil] at hstrip
  exact List.getLast?_eq_none_iff.1 hstrip.symm

/-- What is found in the place of a file is found in the path of what makes it. -/
theorem WrittenAt.infix_path {separator : List Char} (hslash : '/' ∉ separator)
    (hne : separator ≠ []) (h : WrittenAt e k) (hk : separator <:+: k.text.toList) :
    separator <:+: e.path.toList := by
  obtain ⟨n, hn, hin⟩ := (Location.infix_text_iff hslash hne).1 hk
  have hname : n.bytes ∈ Path.components (stripCurrent e.path) := h.names ▸ List.mem_map_of_mem hn
  have hpiece := (Name.text_mem_pieces (List.mem_of_mem_filter hname)).1
  have hbelow := (stripCurrent_suffix e.path).isInfix
  exact hin.trans ((infix_of_mem_pieces (by simp) hpiece).trans hbelow)

/-- A file that a clear entry makes can be packaged by itself. -/
theorem WrittenAt.isClear (h : WrittenAt e w.1) (hbody : e.body = w.2) (he : IsClear e) :
    IsClear (entryAt w) := by
  refine isClear_entryAt_iff.2 ⟨⟨fun hm => ?_, fun hm => ?_⟩, fun hend => ?_, ?_⟩
  · exact he.path_unmarked.1 (h.infix_path (by decide) recordMarker_ne_nil hm)
  · exact he.path_unmarked.2 (h.infix_path (by decide) bodyMarker_ne_nil hm)
  · exact he.path_end (h.getLast?_path.trans hend)
  · exact hbody ▸ he.body_unmarked

/-! ## Entries that make the same files -/

/-- The names and the text that an entry is written with. -/
def written (e : Entry) : List Bytes × String :=
  (Path.components (stripCurrent e.path), e.body)

theorem written_entryAt (hw : w.1 ≠ []) (htext : IsText w.1.path) :
    written (entryAt w) = (w.1.map Name.bytes, w.2) := by
  rw [written, ← Entry.names, names_entryAt hw,
    Location.map_bytes_text (Location.isText_path_iff.1 htext)]
  rfl

theorem nodup_written (hne : ∀ w ∈ found, w.1 ≠ []) (htext : ∀ w ∈ found, IsText w.1.path)
    (hapart : found.Pairwise Apart) : ((found.map entryAt).map written).Nodup := by
  rw [List.map_map, List.Nodup, List.pairwise_map]
  refine hapart.imp_of_mem fun {v w} hv hw h heq => h.1 ?_
  rw [Function.comp_apply, Function.comp_apply, written_entryAt (hne v hv) (htext v hv),
    written_entryAt (hne w hw) (htext w hw), Prod.mk.injEq, Location.map_bytes_inj] at heq
  rw [heq.1]

/-- As many entries that make the same files have as many characters in their bodies. -/
theorem bodyLength_eq (hnodup : (b.map written).Nodup) (hsubset : b.map written ⊆ b'.map written)
    (hlength : b'.length = b.length) : bodyLength b' = bodyLength b := by
  have hperm : (b.map written).Perm (b'.map written) :=
    (List.subperm_of_subset hnodup hsubset).perm_of_length_le (by simp [hlength])
  have hsum : ∀ b : Bundle,
      bodyLength b = ((b.map written).map fun w => w.2.toList.length).sum := by
    intro b
    induction b with
    | nil => rfl
    | cons e rest ih => simpa [bodyLength, written] using ih
  rw [hsum, hsum]
  exact (hperm.map fun w => w.2.toList.length).sum_nat.symm

/-! ## What comes back -/

/-- Whether a directory of a tree holds the files that were to be collected below a root, at the
same names and with the same contents, and the directories leading to them, and nothing else. -/
structure IsCopy (t : FileTree) (r : Location) (extension : String) (p : Location)
    (t' : FileTree) : Prop where
  file_iff : ∀ l content, l ≠ [] → (t'.get? (p ++ l) = some (.file content) ↔
    IsCollectable t r extension l content)
  directory_iff : ∀ l, l ≠ [] → (t'.get? (p ++ l) = some .directory ↔
    ∃ k content, k ≠ [] ∧ IsCollectable t r extension (l ++ k) content)

theorem Collected.isCopy (h : Collected t r extension found)
    (hspread : Spread p found t') : IsCopy t r extension p t' := by
  refine ⟨fun l content hl => ?_, fun l hl => ?_⟩
  · rw [hspread.file_iff l content hl]
    constructor
    · rintro ⟨w, hw, rfl, rfl⟩
      exact h.isCollectable hw
    · intro hfile
      obtain ⟨body, rfl⟩ := h.isText l content hfile
      exact ⟨(l, body), (h.mem_iff l body).2 hfile, rfl, rfl⟩
  · rw [hspread.directory_iff l hl]
    constructor
    · rintro ⟨w, hw, k, hk, hwk⟩
      exact ⟨k, _, hk, hwk ▸ h.isCollectable hw⟩
    · rintro ⟨k, content, hk, hfile⟩
      obtain ⟨body, rfl⟩ := h.isText _ content hfile
      exact ⟨(l ++ k, body), (h.mem_iff _ body).2 hfile, k, hk, rfl⟩

/-- Entries that were packaged and make all the files again can be carried, and their paths are
texts. -/
theorem carriable_of_written (hne : ∀ w ∈ found, w.1 ≠ []) (hapart : found.Pairwise Apart)
    (h : ∀ w ∈ found, ∃ e ∈ decode (encode (found.map entryAt)), WrittenAt e w.1 ∧ e.body = w.2) :
    (∀ w ∈ found, IsText w.1.path) ∧ Carriable (found.map entryAt) := by
  have htext : ∀ w ∈ found, IsText w.1.path := by
    intro w hw
    obtain ⟨e, -, hwritten, -⟩ := h w hw
    exact hwritten.isText
  have hdecode := carriable_decode (encode (found.map entryAt))
  have hclear : ∀ e ∈ found.map entryAt, IsClear e := by
    intro e he
    obtain ⟨w, hw, rfl⟩ := List.mem_map.1 he
    obtain ⟨e, he, hwritten, hbody⟩ := h w hw
    exact hwritten.isClear hbody (hdecode.clear e he)
  have hplain : ∀ e ∈ found.map entryAt, StartsPlain e.path := by
    intro e he
    obtain ⟨w, -, rfl⟩ := List.mem_map.1 he
    exact startsPlain_entryAt w
  -- So only ends of bodies can have moved, and if one did then the bodies are too short.
  have hshift := decode_encode_eq_shift hclear hplain
  have hsubset : (found.map entryAt).map written ⊆
      (decode (encode (found.map entryAt))).map written := by
    intro s hs
    obtain ⟨e, he, rfl⟩ := List.mem_map.1 hs
    obtain ⟨w, hw, rfl⟩ := List.mem_map.1 he
    obtain ⟨e, he, hwritten, hbody⟩ := h w hw
    refine List.mem_map.2 ⟨e, he, ?_⟩
    rw [written_entryAt (hne w hw) (htext w hw), written, ← hwritten.names, hbody]
  rw [hshift] at hsubset
  have hbodies := bodyLength_eq (nodup_written hne htext hapart) hsubset (length_shift _ _)
  exact ⟨htext, hclear, body_end_of_bodyLength_eq hbodies⟩

/-- **Unpacking what was packaged gives a copy exactly when no marker can be found where none was
meant, and all paths are texts.** -/
theorem unpackage_package_iff (hroot : t.find root = .ok ⟨r, .directory⟩)
    (hpackage : package t root extension = .ok text) (hbase : t.find base = .ok ⟨p, .directory⟩)
    (hempty : ∀ l, l ≠ [] → t.get? (p ++ l) = none)
    (hshort : ∀ l content, IsCollectable t r extension l content →
      Path.isTooLong (Path.join base l.path) = false) :
    (∃ paths t', (unpackage text base).on t = (.ok paths, t') ∧ IsCopy t r extension p t') ↔
      HasTextPaths t r extension ∧ Portable t r extension := by
  obtain ⟨b, hcollect, rfl⟩ : ∃ b, collect t root extension = .ok b ∧ encode b = text := by
    cases hcollect : collect t root extension with
    | error e => simp [package, hcollect] at hpackage
    | ok b => exact ⟨b, rfl, by simpa [package, hcollect] using hpackage⟩
  obtain ⟨found, rfl, hfound⟩ := exists_of_collect_eq_ok hroot hcollect
  have hr : t.get? r = some .directory := get?_of_walk (find_eq_ok_iff.1 hroot).2
  have hne : ∀ w ∈ found, w.1 ≠ [] := fun w hw => hfound.ne_nil hr hw
  obtain ⟨⟨-, hnul, -⟩, hwalk⟩ := find_eq_ok_iff.1 hbase
  rw [hfound.hasTextPaths_iff, hfound.portable_iff]
  constructor
  · rintro ⟨paths, t', hrun, hcopy⟩
    obtain ⟨hsafe, -, hentries⟩ := on_writeTo_eq_ok_iff.1 hrun
    refine carriable_of_written hne hfound.apart fun w hw => ?_
    have hfile := (hcopy.file_iff w.1 _ (hne w hw)).2 (hfound.isCollectable hw)
    rcases file_of_writeEntries hwalk hsafe hentries hfile with
      hold | ⟨e, he, k, hk, hwritten, hbody⟩
    · simp [hempty w.1 (hne w hw)] at hold
    · rw [List.append_cancel_left_eq] at hk
      exact ⟨e, he, hk ▸ hwritten, (String.toByteArray_inj.1 hbody).symm⟩
  · rintro ⟨htext, hcarriable⟩
    obtain ⟨t', hentries, hspread⟩ := exists_writeEntries hwalk hnul htext
      (fun w hw => hshort w.1 _ (hfound.isCollectable hw)) hne (spread_nil hempty)
      (by simpa using hfound.apart)
    rw [List.nil_append] at hspread
    have hsafe : ∀ e ∈ found.map entryAt, IsSafe e := by
      intro e he
      obtain ⟨w, hw, rfl⟩ := List.mem_map.1 he
      exact isSafe_entryAt (hne w hw)
    have hrun := on_writeTo_eq_ok_iff.2 ⟨hsafe, rfl, hentries⟩
    rw [← hcarriable.decode_encode] at hrun
    exact ⟨_, t', hrun, hfound.isCopy hspread⟩

namespace Desk

/-- The name with some bytes. -/
def named (bytes : Bytes) (h : (Name.ofBytes? bytes).isSome) : Name :=
  (Name.ofBytes? bytes).get h

def source : Name := named "source" rfl

def copy : Name := named "copy" rfl

def early : Name := named "a.txt" rfl

def late : Name := named "b.txt" rfl

/-- A directory with two texts, the last of which ends in `#`, and an empty directory. -/
def tree : FileTree :=
  let made := (FileTree.empty.put [] source .directory).put [] copy .directory
  let one := made.put [source] early (.file "one".toByteArray)
  one.put [source] late (.file "two#".toByteArray)

theorem get?_copy {l : Location} (hl : l ≠ []) : tree.get? ([copy] ++ l) = none := by
  obtain ⟨n, l, rfl⟩ := List.exists_cons_of_ne_nil hl
  rfl

end Desk

open Desk in
/-- The two texts of the tree, as one text that gives a copy exactly when they are portable. -/
theorem unpackage_package_iff_desk :
    tree.find "source" = .ok ⟨[source], .directory⟩ ∧
      package tree "source" "txt" = .ok "###./a.txt##!one###./b.txt##!two#" ∧
      tree.find "./copy" = .ok ⟨[copy], .directory⟩ ∧
      (∀ l, l ≠ [] → tree.get? ([copy] ++ l) = none) ∧
      ((∃ paths t', (unpackage "###./a.txt##!one###./b.txt##!two#" "./copy").on tree =
          (.ok paths, t') ∧ IsCopy tree [source] "txt" [copy] t') ↔
        HasTextPaths tree [source] "txt" ∧ Portable tree [source] "txt") := by
  have hroot : tree.find "source" = .ok ⟨[source], .directory⟩ := rfl
  have hpackage : package tree "source" "txt" = .ok "###./a.txt##!one###./b.txt##!two#" := rfl
  have hbase : tree.find "./copy" = .ok ⟨[copy], .directory⟩ := rfl
  have hempty : ∀ l, l ≠ [] → tree.get? ([copy] ++ l) = none := fun l => get?_copy
  have hfound : Collected tree [source] "txt" [([early], "one"), ([late], "two#")] :=
    collected_of_wanted rfl rfl
  have hshort : ∀ l content, IsCollectable tree [source] "txt" l content →
      Path.isTooLong (Path.join "./copy" l.path) = false :=
    hfound.forall_isCollectable (by decide)
  exact ⟨hroot, hpackage, hbase, hempty,
    unpackage_package_iff hroot hpackage hbase hempty hshort⟩

namespace Desk

/-- Two names that are no texts, and are read as one. -/
def odd : Name := named [0xfe, 0x2e, 0x72, 0x73] rfl

def twin : Name := named [0xff, 0x2e, 0x72, 0x73] rfl

/-- A directory with two files whose names are read as one text, and an empty directory. -/
def twins : FileTree :=
  let made := (FileTree.empty.put [] source .directory).put [] copy .directory
  let one := made.put [source] odd (.file "one".toByteArray)
  one.put [source] twin (.file "two".toByteArray)

theorem get?_copy_twins {l : Location} (hl : l ≠ []) : twins.get? ([copy] ++ l) = none := by
  obtain ⟨n, l, rfl⟩ := List.exists_cons_of_ne_nil hl
  rfl

theorem collected_twins : Collected twins [source] "rs" [([odd], "one"), ([twin], "two")] :=
  collected_of_wanted rfl rfl

/-- The text that the twins are packaged to. -/
def twinsText : String := "###./\uFFFD.rs##!one###./\uFFFD.rs##!two"

end Desk

open Desk in
/-- The twins do not come back, although there is no marker in them. -/
theorem not_isCopy_twins :
    twins.find "source" = .ok ⟨[source], .directory⟩ ∧
      package twins "source" "rs" = .ok twinsText ∧
      twins.find "./copy" = .ok ⟨[copy], .directory⟩ ∧
      (∀ l, l ≠ [] → twins.get? ([copy] ++ l) = none) ∧
      (∀ l content, IsCollectable twins [source] "rs" l content →
        Path.isTooLong (Path.join "./copy" l.path) = false) ∧
      Portable twins [source] "rs" ∧
      ¬ ∃ paths t', (unpackage twinsText "./copy").on twins = (.ok paths, t') ∧
        IsCopy twins [source] "rs" [copy] t' := by
  refine ⟨rfl, rfl, rfl, fun l => get?_copy_twins,
    collected_twins.forall_isCollectable (by decide), ?_, ?_⟩
  · rw [collected_twins.portable_iff]
    decide
  · rintro ⟨paths, t', hrun, hcopy⟩
    -- Neither of the two is at the name that was written.
    have habsent : t'.get? ([copy] ++ [odd]) = none := by
      have hafter : ((unpackage twinsText "./copy").on twins).2.get? ([copy] ++ [odd]) = none := by
        decide +kernel
      rwa [hrun] at hafter
    have hfile : IsCollectable twins [source] "rs" [odd] "one".toByteArray :=
      (collected_twins.mem_iff _ _).1 List.mem_cons_self
    rw [← hcopy.file_iff [odd] _ (List.cons_ne_nil _ _), habsent] at hfile
    cases hfile

end Bundle

end Atelier
