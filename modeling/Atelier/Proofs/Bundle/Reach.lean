import Atelier.Proofs.Attempt
import Atelier.Proofs.Bundle.Ascending
import Atelier.Proofs.Bundle.RoundTrip

/-!
# When a directory can be collected

Collecting goes to everything below a root by path text. It succeeds exactly when all directories
and all files with the extension can be reached in this way (`Reachable`), and these files are
texts. Files with other extensions never matter. What is collected then are these files, each once
and in order, whatever order directories list their names in.

A path text is that of the root with the names behind it, so whether something can be reached is
also a matter of how the root is spelled. And two names can be read as one text, so two files can
have one path in a bundle (`collect_of_directory_limits`).
-/

namespace Atelier

open FileTree

namespace Bundle

variable {t : FileTree} {listed : Forest} {root : Bytes} {extension : String} {r k : Location}
  {item : Item} {content : ByteArray} {b : Bundle} {err : ToolError}
  {found : List (Location × String)}

/-! ## One visit -/

/-- **All that can go wrong on a visit**: a directory or a wanted file is too far below the root, or
the file is no text. -/
theorem visit_eq_error_iff :
    visit root extension r (r ++ k, item) = .error err ↔
      (item = .directory ∧ Path.isTooLong (reach root k) = true ∧
        err = .walk k.length (reach root k) (.os .nameTooLong)) ∨
      ∃ content, item = .file content ∧ isWanted extension (r ++ k, .file content) = true ∧
        (Path.isTooLong (reach root k) = true ∧ err = .io (.os .nameTooLong) ∨
          Path.isTooLong (reach root k) = false ∧ String.fromUTF8? content = none ∧
            err = .io .notUtf8) := by
  rw [eq_comm (a := err), eq_comm (a := err), eq_comm (a := err)]
  cases item with
  | directory =>
    cases hlong : Path.isTooLong (reach root k) with
    | true => simp [visit, hlong]
    | false => simp [visit, hlong]
  | file content =>
    cases hwanted : isWanted extension (r ++ k, .file content) with
    | false => simp [visit, hwanted]
    | true =>
      cases hlong : Path.isTooLong (reach root k) with
      | true => simp [visit, hwanted, hlong]
      | false =>
        cases htext : String.fromUTF8? content with
        | none => simp [visit, hwanted, hlong, readEntry, htext]
        | some text => simp [visit, hwanted, hlong, readEntry, htext]

/-- Nothing goes wrong on a visit when a directory, or a wanted file, is not too far below the root,
and such a file is text. -/
theorem exists_visit_eq_ok_iff :
    (∃ found, visit root extension r (r ++ k, item) = .ok found) ↔
      (item = .directory → Path.isTooLong (reach root k) = false) ∧
        ∀ content, item = .file content → isWanted extension (r ++ k, .file content) = true →
          Path.isTooLong (reach root k) = false ∧ ∃ text : String, content = text.toByteArray := by
  cases item with
  | directory =>
    cases hlong : Path.isTooLong (reach root k) with
    | true => simp [visit, hlong]
    | false => simp [visit, hlong]
  | file content =>
    cases hwanted : isWanted extension (r ++ k, .file content) with
    | false => simp [visit, hwanted]
    | true =>
      cases hlong : Path.isTooLong (reach root k) with
      | true => simp [visit, hwanted, hlong]
      | false =>
        simp only [← Text.fromUTF8?_eq_some_iff]
        cases htext : String.fromUTF8? content with
        | none => simp [visit, hwanted, hlong, readEntry, htext]
        | some text => simp [visit, hwanted, hlong, readEntry, htext]

/-- The root itself is no file. -/
theorem IsCollectable.ne_nil (h : IsCollectable t r extension k content) : k ≠ [] := by
  rintro rfl
  simp [IsCollectable] at h

/-- A file below a directory is collectable exactly when it is wanted. -/
theorem isCollectable_iff (hr : t.get? r = some .directory) :
    IsCollectable t r extension k content ↔
      t.get? (r ++ k) = some (.file content) ∧
        isWanted extension (r ++ k, .file content) = true := by
  rw [IsCollectable, and_congr_right_iff]
  intro hfile
  have hk : k ≠ [] := by
    rintro rfl
    simp [hr] at hfile
  rw [isWanted, List.getLast?_append_of_ne_nil _ hk, beq_iff_eq]

/-! ## All visits -/

/-- Whether the directories below a root and the files with an extension can be reached, by path
texts that are not too long. -/
structure Reachable (t : FileTree) (root : Bytes) (r : Location) (extension : String) : Prop where
  directory : ∀ k, k ≠ [] → t.get? (r ++ k) = some .directory →
    Path.isTooLong (reach root k) = false
  file : ∀ k content, IsCollectable t r extension k content →
    Path.isTooLong (reach root k) = false

theorem Reachable.isTooLong_reach (h : Reachable t root r extension)
    (hroot : t.find root = .ok ⟨r, .directory⟩) (hdir : t.get? (r ++ k) = some .directory) :
    Path.isTooLong (reach root k) = false := by
  by_cases hk : k = []
  · simpa [hk, reach] using (find_eq_ok_iff.1 hroot).1.2.2
  · exact h.directory k hk hdir

/-- Nothing goes wrong exactly when all can be reached and all that is wanted is text. -/
theorem forall_exists_visit_iff (hroot : t.find root = .ok ⟨r, .directory⟩) :
    (∀ e ∈ t.below r, ∃ found, visit root extension r e = .ok found) ↔
      Reachable t root r extension ∧ ∀ k content, IsCollectable t r extension k content →
        ∃ text : String, content = text.toByteArray := by
  have hr : t.get? r = some .directory := get?_of_walk (find_eq_ok_iff.1 hroot).2
  constructor
  · intro hvisit
    have hbelow : ∀ k item, k ≠ [] → t.get? (r ++ k) = some item →
        ∃ found, visit root extension r (r ++ k, item) = .ok found := by
      intro k item hk hget
      exact hvisit _ (mem_below_iff.2 ⟨by simp [hk], List.prefix_append r k, hget⟩)
    have hfile : ∀ k content, IsCollectable t r extension k content →
        Path.isTooLong (reach root k) = false ∧ ∃ text : String, content = text.toByteArray := by
      intro k content hk
      obtain ⟨hget, hwanted⟩ := (isCollectable_iff hr).1 hk
      exact (exists_visit_eq_ok_iff.1 (hbelow k _ hk.ne_nil hget)).2 content rfl hwanted
    refine ⟨⟨?_, fun k content hk => (hfile k content hk).1⟩,
      fun k content hk => (hfile k content hk).2⟩
    intro k hk hdir
    exact (exists_visit_eq_ok_iff.1 (hbelow k _ hk hdir)).1 rfl
  · rintro ⟨hreach, htext⟩ ⟨l, item⟩ he
    obtain ⟨-, ⟨k, rfl⟩, hget⟩ := mem_below_iff.1 he
    refine exists_visit_eq_ok_iff.2 ⟨?_, ?_⟩
    · rintro rfl
      exact hreach.isTooLong_reach hroot hget
    · rintro content rfl hwanted
      have hk := (isCollectable_iff hr).2 ⟨hget, hwanted⟩
      exact ⟨hreach.file k content hk, htext k content hk⟩

/-- **A directory is collected** exactly when all below it can be reached and all that is wanted is
text. -/
theorem exists_collect_iff (hroot : t.find root = .ok ⟨r, .directory⟩) :
    (∃ b, collect t root extension = .ok b) ↔
      Reachable t root r extension ∧ ∀ k content, IsCollectable t r extension k content →
        ∃ text : String, content = text.toByteArray := by
  rw [← forall_exists_visit_iff hroot, ← exists_mapM_eq_ok_iff]
  constructor
  · rintro ⟨b, hb⟩
    obtain ⟨place, visits, hplace, hvisits, -⟩ := collect_eq_ok_iff.1 hb
    obtain rfl : ⟨r, .directory⟩ = place := Except.ok.inj (hroot.symm.trans hplace)
    exact ⟨visits, hvisits⟩
  · rintro ⟨visits, hvisits⟩
    exact ⟨_, collect_eq_ok_iff.2 ⟨_, visits, hroot, hvisits, rfl⟩⟩

/-- An error of collecting a directory is that of a visit. -/
theorem exists_visit_eq_error (hroot : t.find root = .ok ⟨r, .directory⟩)
    (h : collect t root extension = .error err) :
    ∃ k item, t.get? (r ++ k) = some item ∧
      visit root extension r (r ++ k, item) = .error err := by
  have hvisits : (t.below r).mapM (visit root extension r) = .error err := by
    rw [collect_of_find hroot] at h
    cases hvisits : (t.below r).mapM (visit root extension r) with
    | error e => simpa [hvisits] using h
    | ok visits => simp [hvisits] at h
  obtain ⟨⟨l, item⟩, he, herror⟩ := exists_of_mapM_eq_error hvisits
  obtain ⟨-, ⟨k, rfl⟩, hget⟩ := mem_below_iff.1 he
  exact ⟨k, item, hget, herror⟩

/-! ## What collecting gives -/

/-- When not every file is text, or something is too far away, the error says so. -/
theorem notUtf8_or_nameTooLong (hroot : t.find root = .ok ⟨r, .directory⟩)
    (h : collect t root extension = .error err) :
    err = .io .notUtf8 ∨ ¬ Reachable t root r extension ∧
      (err = .io (.os .nameTooLong) ∨ ∃ depth path, err = .walk depth path (.os .nameTooLong)) := by
  have hr : t.get? r = some .directory := get?_of_walk (find_eq_ok_iff.1 hroot).2
  obtain ⟨k, item, hget, herror⟩ := exists_visit_eq_error hroot h
  rcases visit_eq_error_iff.1 herror with
    ⟨rfl, hlong, rfl⟩ | ⟨content, rfl, hwanted, ⟨hlong, rfl⟩ | ⟨-, -, rfl⟩⟩
  · refine .inr ⟨fun hreach => ?_, .inr ⟨_, _, rfl⟩⟩
    simp [hreach.isTooLong_reach hroot hget] at hlong
  · refine .inr ⟨fun hreach => ?_, .inl rfl⟩
    simp [hreach.file k content ((isCollectable_iff hr).2 ⟨hget, hwanted⟩)] at hlong
  · exact .inl rfl

/-- What is collected below a directory has its paths in order, if they are texts. -/
theorem ascending_of_collect (hroot : t.find root = .ok ⟨r, .directory⟩)
    (htext : HasTextPaths t r extension) (h : collect t root extension = .ok b) : Ascending b := by
  obtain ⟨found, rfl, hfound⟩ := exists_of_collect_eq_ok hroot h
  have hr : t.get? r = some .directory := get?_of_walk (find_eq_ok_iff.1 hroot).2
  exact ascending_of_isText hfound.sorted (fun w hw => hfound.ne_nil hr hw)
    (hfound.hasTextPaths_iff.1 htext)

/-- **Collecting a directory finds every wanted file once, in order**, whatever order directories
list their names in. It succeeds exactly when everything can be reached and these files are texts,
and else the error tells which was not so. The paths are in order too, if the names are texts. -/
theorem collect_of_directory (hroot : t.find root = .ok ⟨r, .directory⟩) (hlisted : t.Lists listed)
    (extension : String) :
    ((∃ b, collectListed t listed root extension = .ok b) ↔
        Reachable t root r extension ∧ ∀ k content, IsCollectable t r extension k content →
          ∃ text : String, content = text.toByteArray) ∧
      (∀ err, collectListed t listed root extension = .error err → err = .io .notUtf8 ∨
        ¬ Reachable t root r extension ∧ (err = .io (.os .nameTooLong) ∨
          ∃ depth path, err = .walk depth path (.os .nameTooLong))) ∧
      ∀ b, collectListed t listed root extension = .ok b →
        (∃ found : List (Location × String),
          b = found.map entryAt ∧ Collected t r extension found) ∧
        (HasTextPaths t r extension → Ascending b) := by
  rw [collectListed_eq hlisted]
  refine ⟨exists_collect_iff hroot, fun err => notUtf8_or_nameTooLong hroot, fun b h => ?_⟩
  exact ⟨exists_of_collect_eq_ok hroot h, fun htext => ascending_of_collect hroot htext h⟩

namespace Desk

/-- What is in the tree, with all names the wrong way round. -/
def unsorted : Forest :=
  .directory source (.file late "two#".toByteArray (.file early "one".toByteArray .nil))
    (.directory copy .nil .nil)

theorem lists_unsorted : tree.Lists unsorted :=
  FileTree.lists_iff.2
    ⟨⟨by decide, ⟨by decide, by decide, trivial⟩, by decide, trivial, trivial⟩, rfl⟩

end Desk

open Desk in
/-- The two texts of the tree are found, once each and in order. -/
theorem collect_of_directory_desk :
    tree.find "source" = .ok ⟨[source], .directory⟩ ∧ tree.Lists unsorted ∧
      collectListed tree unsorted "source" "txt" = .ok [⟨"./a.txt", "one"⟩, ⟨"./b.txt", "two#"⟩] ∧
      ∃ found : List (Location × String),
        [⟨"./a.txt", "one"⟩, ⟨"./b.txt", "two#"⟩] = found.map entryAt ∧
          Collected tree [source] "txt" found := by
  have hroot : tree.find "source" = .ok ⟨[source], .directory⟩ := rfl
  obtain ⟨-, -, hfound⟩ := collect_of_directory hroot lists_unsorted "txt"
  exact ⟨hroot, lists_unsorted, rfl, (hfound _ rfl).1⟩

/-! ## A root with a long path text -/

namespace Desk

/-- A name of many letters. -/
def lettered (n : Nat) (hpos : 0 < n) (hshort : n ≤ 255) : Name where
  bytes := .replicate n 0x6c
  ne_nil := by simp [hpos.ne']
  ne_current := by
    have hcurrent : 0x2e ∈ Path.current := by decide
    intro h
    exact absurd (List.eq_of_mem_replicate (h ▸ hcurrent)) (by decide)
  ne_up := by
    have hup : 0x2e ∈ Path.up := by decide
    intro h
    exact absurd (List.eq_of_mem_replicate (h ▸ hup)) (by decide)
  no_slash := fun h => absurd (List.eq_of_mem_replicate h) (by decide)
  no_nul := fun h => absurd (List.eq_of_mem_replicate h) (by decide)
  short := by rwa [List.length_replicate]

def lengthy : Name := lettered 240 (by decide) (by decide)

/-- A directory with an empty directory in it. -/
def deep (n : Name) : FileTree :=
  ⟨.directory source (.directory n .nil .nil) .nil, by simp [Forest.Ordered, Forest.names]⟩

theorem not_isCollectable_deep (n : Name) {extension : String} {k : Location}
    {content : ByteArray} : ¬ IsCollectable (deep n) [source] extension k content := by
  rintro ⟨hfile, -⟩
  cases k with
  | nil => simp [deep, FileTree.get?, Forest.get?] at hfile
  | cons m k =>
    by_cases hm : n = m
    · cases k with
      | nil => simp [deep, FileTree.get?, Forest.get?, hm] at hfile
      | cons m' k => simp [deep, FileTree.get?, Forest.get?, hm] at hfile
    · simp [deep, FileTree.get?, Forest.get?, hm] at hfile

/-- A path text with many segments in front that lead nowhere. -/
def padded (n : Nat) (segment : Bytes) : Bytes :=
  Path.ofSegments (.replicate n Path.current ++ [segment])

theorem padded_succ (n : Nat) (segment : Bytes) :
    padded (n + 1) segment = Path.current ++ Path.slash :: padded n segment := by
  rw [padded, List.replicate_succ, List.cons_append, Path.ofSegments_cons _ (by simp), padded]

theorem segments_padded (n : Nat) (m : Name) :
    Path.segments (padded n m.bytes) = .replicate n Path.current ++ [m.bytes] := by
  refine Path.segments_ofSegments (by simp) ?_
  intro s hs
  rcases List.mem_append.1 hs with hs | hs
  · obtain rfl := List.eq_of_mem_replicate hs
    decide
  · obtain rfl := List.mem_singleton.1 hs
    exact m.no_slash

theorem length_padded (n : Nat) (segment : Bytes) :
    (padded n segment).length = 2 * n + segment.length := by
  induction n with
  | zero => simp [padded]
  | succ n ih =>
    have hcurrent : Path.current.length = 1 := by decide
    rw [padded_succ, List.length_append, List.length_cons, ih, hcurrent]
    omega

theorem padded_ne_nil (n : Nat) (m : Name) : padded n m.bytes ≠ [] := by
  have hpos := List.length_pos_iff.2 m.ne_nil
  rw [← List.length_pos_iff, length_padded]
  omega

theorem hasNul_padded (n : Nat) (m : Name) : Path.hasNul (padded n m.bytes) = false := by
  induction n with
  | zero => simpa [padded, Path.hasNul] using m.no_nul
  | succ n ih =>
    have hcurrent : 0 ∉ Path.current := by decide
    simpa [padded_succ, Path.hasNul, hcurrent, Path.slash] using ih

/-- Segments that lead nowhere do not change where a name leads. -/
theorem walk_padded {m : Name} (n : Nat) (h : t.get? [m] = some .directory) :
    t.walk (Path.segments (padded n m.bytes)) = .ok ⟨[m], .directory⟩ := by
  refine follow_of_filter ?_
  have hcurrent : Path.isIdle Path.current = true := by decide
  have hname : [m.bytes].filter (!Path.isIdle ·) = [m].map Name.bytes := filter_names [m]
  rw [segments_padded, List.filter_append, List.filter_replicate_of_neg (by simp [hcurrent]),
    List.nil_append, hname]
  exact follow_names (get?_root t) h

theorem find_padded {n : Nat} {m : Name} (h : t.get? [m] = some .directory)
    (hshort : 2 * n + m.bytes.length ≤ 4095) :
    t.find (padded n m.bytes) = .ok ⟨[m], .directory⟩ := by
  refine find_eq_ok_iff.2 ⟨⟨padded_ne_nil n m, hasNul_padded n m, ?_⟩, walk_padded n h⟩
  rw [Path.isTooLong, decide_eq_false_iff_not, length_padded]
  omega

theorem length_le_of_reachable {n : Name} {root : Bytes} {extension : String}
    (h : Reachable (deep n) root [source] extension) : root.length + n.bytes.length ≤ 4095 := by
  have hshort := h.directory [n] (by simp) (by simp [deep, FileTree.get?, Forest.get?])
  rw [reach, if_neg (by simp), Path.isTooLong, decide_eq_false_iff_not, Location.path,
    List.map_singleton, Path.ofSegments_singleton, Path.join] at hshort
  split at hshort
  all_goals
    simp only [List.length_append, List.length_cons] at hshort
    omega

end Desk

open Desk in
/-- Under a long path text nothing can be collected from a directory, although it has no file that
is not text. And two names can be read as one text, so two entries can have one path. -/
theorem collect_of_directory_limits :
    ((deep lengthy).find (padded 1950 source.bytes) = .ok ⟨[source], .directory⟩ ∧
      (∀ k content, ¬ IsCollectable (deep lengthy) [source] "txt" k content) ∧
      ¬ ∃ b, collect (deep lengthy) (padded 1950 source.bytes) "txt" = .ok b) ∧
    collect twins "source" "rs" = .ok [⟨"./\uFFFD.rs", "one"⟩, ⟨"./\uFFFD.rs", "two"⟩] := by
  have hsource : source.bytes.length = 6 := by decide
  have hdir : (deep lengthy).get? [source] = some .directory := by
    simp [deep, FileTree.get?, Forest.get?]
  have hroot := find_padded hdir (show 2 * 1950 + source.bytes.length ≤ 4095 by omega)
  refine ⟨⟨hroot, fun k content => not_isCollectable_deep lengthy, ?_⟩, rfl⟩
  intro hcollect
  have hlength := length_le_of_reachable ((exists_collect_iff hroot).1 hcollect).1
  have hlengthy : lengthy.bytes.length = 240 := List.length_replicate
  rw [length_padded, hsource, hlengthy] at hlength
  omega

end Bundle

end Atelier
