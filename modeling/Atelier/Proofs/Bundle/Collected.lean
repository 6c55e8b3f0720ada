import Atelier.Bundle.Collect
import Atelier.Proofs.FileSystem.Listing
import Atelier.Proofs.FileSystem.Walk
import Atelier.Proofs.Text.Lossy
import Mathlib.Data.List.ReduceOption

/-!
# What is collected

A bundle that was collected holds one entry for each wanted file below the root, in the order of
their locations, and each of these files holds the text of its entry.
-/

namespace Atelier

/-- A content is a text when it is the bytes of the text. -/
theorem Text.fromUTF8?_eq_some_iff {content : ByteArray} {text : String} :
    String.fromUTF8? content = some text ↔ content = text.toByteArray := by
  rw [String.fromUTF8?]
  split
  · rw [Option.some.injEq, ← String.toByteArray_inj]
    rfl
  · rename_i h
    simp only [reduceCtorEq, false_iff]
    rintro rfl
    exact h text.isValidUTF8

/-- Locations below one location are in the order of what follows it. -/
theorem Location.compare_append_left (front k l : Location) :
    compare (front ++ k) (front ++ l) = compare k l := by
  induction front with
  | nil => rfl
  | cons n front ih =>
    have hself : compare n n = .eq := Std.ReflCmp.compare_self
    rw [← ih]
    show List.compareLex compare (n :: (front ++ k)) (n :: (front ++ l)) = _
    rw [List.compareLex_cons_cons, hself]
    rfl

namespace Bundle

variable {t : FileTree} {listed : Forest} {root : Bytes} {extension : String} {r k : Location}
  {content : ByteArray} {b : Bundle} {listing : Listing} {visits : List (Option Entry)}
  {found : List (Location × String)}

/-- Whether a file with a content stands below a root, at some names, and has an extension. -/
def IsCollectable (t : FileTree) (r : Location) (extension : String) (k : Location)
    (content : ByteArray) : Prop :=
  t.get? (r ++ k) = some (.file content) ∧
    k.getLast?.bind Name.extension? = some (Text.bytes extension)

/-- Whether the paths of the files to be collected below a root are texts. -/
def HasTextPaths (t : FileTree) (r : Location) (extension : String) : Prop :=
  ∀ k content, IsCollectable t r extension k content → Text.IsText k.path

/-- The entry for a text at some names. -/
def entryAt (w : Location × String) : Entry :=
  ⟨entryPath w.1, w.2⟩

theorem visit_eq_ok {e : Location × Item} {found : Option Entry}
    (h : visit root extension r e = .ok found) :
    if isWanted extension e = true then
      ∃ text, e.2 = .file text.toByteArray ∧ found = some (entryAt (e.1.drop r.length, text))
    else found = none := by
  obtain ⟨l, item⟩ := e
  cases item with
  | directory =>
    simp only [visit] at h
    split_ifs at h
    simpa [isWanted, eq_comm] using h
  | file content =>
    simp only [visit] at h
    by_cases hwanted : isWanted extension (l, .file content) = true
    · simp only [hwanted, not_true, if_false] at h
      split_ifs at h
      rw [readEntry] at h
      cases htext : String.fromUTF8? content with
      | none => simp [htext] at h
      | some text =>
        rw [htext] at h
        rw [if_pos hwanted]
        exact ⟨text, by rw [Text.fromUTF8?_eq_some_iff.1 htext], (Except.ok.inj h).symm⟩
    · simpa [hwanted, eq_comm] using h

/-- What visits give, for a list of entries of a tree. -/
theorem mapM_visit_eq_ok (h : listing.mapM (visit root extension r) = .ok visits) :
    ∃ found : List (Location × String), visits.reduceOption = found.map entryAt ∧
      found.map (fun w => (w.1, Item.file w.2.toByteArray)) =
        (listing.filter (isWanted extension)).map fun e => (e.1.drop r.length, e.2) := by
  rw [mapM_eq_ok_iff] at h
  induction h with
  | nil => exact ⟨[], rfl, rfl⟩
  | @cons e first rest later hv _ ih =>
    obtain ⟨found, hfound, hlist⟩ := ih
    have hfirst := visit_eq_ok hv
    split_ifs at hfirst with hwanted
    · obtain ⟨text, hfile, rfl⟩ := hfirst
      refine ⟨(e.1.drop r.length, text) :: found, ?_, ?_⟩
      · rw [List.reduceOption_cons_of_some, hfound, List.map_cons]
      · rw [List.filter_cons_of_pos hwanted, List.map_cons, List.map_cons, hlist, hfile]
    · subst hfirst
      refine ⟨found, ?_, ?_⟩
      · rw [List.reduceOption_cons_of_none, hfound]
      · rw [List.filter_cons_of_neg hwanted, hlist]

/-- **Whatever order directories are listed in, the same is collected.** -/
theorem collectListed_eq (h : t.Lists listed) :
    collectListed t listed root extension = collect t root extension := by
  rw [collect, collectListed, collectListed, h.inOrder_eq, (FileTree.lists_top t).inOrder_eq]

/-- Collecting is visiting everything below the root and keeping what is found. -/
theorem collect_of_find {place : Place} (h : t.find root = .ok place) :
    collect t root extension = (·.reduceOption) <$>
      (t.below place.location).mapM (visit root extension place.location) := by
  have hfound : (t.find root).mapError (ToolError.walk 0 root) = .ok place :=
    mapError_eq_ok_iff.2 h
  rw [collect, collectListed, (FileTree.lists_top t).inOrder_eq, hfound, ← bind_pure_comp]
  rfl

theorem collect_eq_ok_iff :
    collect t root extension = .ok b ↔
      ∃ place visits, t.find root = .ok place ∧
        (t.below place.location).mapM (visit root extension place.location) = .ok visits ∧
        visits.reduceOption = b := by
  constructor
  · intro h
    obtain ⟨place, hplace, -⟩ := bind_eq_ok_iff.1 h
    have hplace := mapError_eq_ok_iff.1 hplace
    rw [collect_of_find hplace] at h
    obtain ⟨visits, hvisits, hb⟩ := map_eq_ok_iff.1 h
    exact ⟨place, visits, hplace, hvisits, hb⟩
  · rintro ⟨place, visits, hplace, hvisits, rfl⟩
    rw [collect_of_find hplace, hvisits]
    rfl

/-! ## Below a root -/

theorem mem_below_iff {l : Location} {item : Item} :
    (l, item) ∈ t.below r ↔ l ≠ [] ∧ r <+: l ∧ t.get? l = some item := by
  rw [FileTree.below, Forest.entriesBelow, List.mem_filter, List.isPrefixOf_iff_prefix]
  constructor
  · rintro ⟨hmem, hpre⟩
    obtain ⟨n, -, rest, rfl⟩ := Forest.exists_head_of_mem_entries hmem
    exact ⟨by simp, hpre, (FileTree.get?_eq_some_iff (by simp)).2 hmem⟩
  · rintro ⟨hne, hpre, hget⟩
    exact ⟨(FileTree.get?_eq_some_iff hne).1 hget, hpre⟩

/-- The wanted files at and below a directory are the collectable files below it. -/
theorem mem_wanted_iff (hr : t.get? r = some .directory) {item : Item} :
    (k, item) ∈ ((t.below r).filter (isWanted extension)).map (fun e => (e.1.drop r.length, e.2)) ↔
      ∃ content, item = .file content ∧ IsCollectable t r extension k content := by
  have hlast : k ≠ [] → (r ++ k).getLast? = k.getLast? :=
    fun hk => List.getLast?_append_of_ne_nil _ hk
  have hne : ∀ content, t.get? (r ++ k) = some (.file content) → k ≠ [] := by
    rintro content hfile rfl
    simp [hr] at hfile
  simp only [List.mem_map, List.mem_filter, Prod.exists, Prod.mk.injEq]
  constructor
  · rintro ⟨l, found, ⟨hmem, hwanted⟩, hk, rfl⟩
    obtain ⟨-, ⟨below, rfl⟩, hget⟩ := mem_below_iff.1 hmem
    obtain rfl : below = k := by simpa using hk
    cases found with
    | directory => simp [isWanted] at hwanted
    | file content =>
      refine ⟨content, rfl, hget, ?_⟩
      simpa [isWanted, hlast (hne content hget)] using hwanted
  · rintro ⟨content, rfl, hget, hextension⟩
    have hk := hne content hget
    have hbelow := mem_below_iff.2 ⟨by simp [hk], ⟨k, rfl⟩, hget⟩
    refine ⟨r ++ k, .file content, ⟨hbelow, ?_⟩, by simp, rfl⟩
    simpa [isWanted, hlast hk] using hextension

theorem pairwise_wanted (t : FileTree) (r : Location) (extension : String) :
    (((t.below r).filter (isWanted extension)).map fun e => (e.1.drop r.length, e.2)).Pairwise
      fun v w => compare v.1 w.1 = .lt := by
  have hsorted : ((t.below r).filter (isWanted extension)).Pairwise
      fun v w => compare v.1 w.1 = .lt :=
    ((Forest.pairwise_entries t.ordered).filter _).filter _
  refine List.pairwise_map.2 (hsorted.imp_of_mem fun {v w} hv hw hlt => ?_)
  obtain ⟨-, ⟨k, hk⟩, -⟩ := mem_below_iff.1 (List.mem_of_mem_filter hv)
  obtain ⟨-, ⟨l, hl⟩, -⟩ := mem_below_iff.1 (List.mem_of_mem_filter hw)
  rw [← hk, ← hl, Location.compare_append_left] at hlt
  simpa [← hk, ← hl] using hlt

/-- Whether a list holds the collectable files below a root, each once and in order, and all of them
are texts. -/
structure Collected (t : FileTree) (r : Location) (extension : String)
    (found : List (Location × String)) : Prop where
  sorted : found.Pairwise fun v w => compare v.1 w.1 = .lt
  mem_iff : ∀ k text, (k, text) ∈ found ↔ IsCollectable t r extension k text.toByteArray
  isText : ∀ k content, IsCollectable t r extension k content →
    ∃ text : String, content = text.toByteArray

theorem Collected.forall_isCollectable {P : Location → ByteArray → Prop}
    (h : Collected t r extension found) (hall : ∀ w ∈ found, P w.1 w.2.toByteArray) :
    ∀ k content, IsCollectable t r extension k content → P k content := by
  intro k content hk
  obtain ⟨text, rfl⟩ := h.isText k content hk
  exact hall (k, text) ((h.mem_iff k text).2 hk)

theorem Collected.isCollectable {w : Location × String} (h : Collected t r extension found)
    (hw : w ∈ found) : IsCollectable t r extension w.1 w.2.toByteArray :=
  (h.mem_iff w.1 w.2).1 hw

/-- What is said of all paths of collectable files can be said of those in the list. -/
theorem Collected.hasTextPaths_iff (h : Collected t r extension found) :
    HasTextPaths t r extension ↔ ∀ w ∈ found, Text.IsText w.1.path := by
  constructor
  · intro hpaths w hw
    exact hpaths w.1 _ (h.isCollectable hw)
  · intro hpaths
    exact h.forall_isCollectable hpaths

theorem Collected.ne_nil {w : Location × String} (hr : t.get? r = some .directory)
    (h : Collected t r extension found) (hw : w ∈ found) : w.1 ≠ [] := by
  intro hnil
  have hfile := (h.isCollectable hw).1
  simp [hnil, hr] at hfile

/-- Whether neither of two files is at or below the other. -/
def Apart (v w : Location × String) : Prop :=
  ¬ v.1 <+: w.1 ∧ ¬ w.1 <+: v.1

/-- Nothing is below a file, so files that were collected are apart. -/
theorem Collected.apart (h : Collected t r extension found) : found.Pairwise Apart := by
  have hbelow : ∀ v ∈ found, ∀ w ∈ found, v.1 <+: w.1 → v.1 = w.1 := by
    rintro v hv w hw ⟨k, hk⟩
    by_contra hne
    have hknil : k ≠ [] := by
      rintro rfl
      exact hne (by simpa using hk)
    have hfile := (h.isCollectable hw).1
    rw [← hk, ← List.append_assoc,
      FileTree.get?_append_of_file (h.isCollectable hv).1 hknil] at hfile
    simp at hfile
  refine h.sorted.imp_of_mem fun {v w} hv hw hlt => ?_
  have hne : v.1 ≠ w.1 := by
    intro heq
    simp [heq] at hlt
  exact ⟨fun hp => hne (hbelow v hv w hw hp), fun hp => hne (hbelow w hw v hv hp).symm⟩

/-- The wanted files below a directory, all of them texts, are the collectable files. -/
theorem collected_of_wanted (hr : t.get? r = some .directory)
    (hlist : found.map (fun w => (w.1, Item.file w.2.toByteArray)) =
      ((t.below r).filter (isWanted extension)).map fun e => (e.1.drop r.length, e.2)) :
    Collected t r extension found := by
  have hmem : ∀ k item, (k, item) ∈ found.map (fun w => (w.1, Item.file w.2.toByteArray)) ↔
      ∃ content, item = .file content ∧ IsCollectable t r extension k content := by
    intro k item
    rw [hlist, mem_wanted_iff hr]
  refine ⟨?_, fun k text => ?_, fun k content hk => ?_⟩
  · have hsorted := pairwise_wanted t r extension
    rw [← hlist, List.pairwise_map] at hsorted
    exact hsorted
  · have hiff := hmem k (.file text.toByteArray)
    simpa [String.toByteArray_inj] using hiff
  · obtain ⟨w, -, hw⟩ := List.mem_map.1 ((hmem k (.file content)).2 ⟨content, rfl, hk⟩)
    simp only [Prod.mk.injEq, Item.file.injEq] at hw
    exact ⟨w.2, hw.2.symm⟩

/-- **A collected bundle has an entry for each collectable file below its root, in order.** -/
theorem exists_of_collect_eq_ok (hroot : t.find root = .ok ⟨r, .directory⟩)
    (h : collect t root extension = .ok b) :
    ∃ found : List (Location × String), b = found.map entryAt ∧ Collected t r extension found := by
  have hr : t.get? r = some .directory :=
    FileTree.get?_of_walk (FileTree.find_eq_ok_iff.1 hroot).2
  obtain ⟨place, visits, hplace, hvisits, rfl⟩ := collect_eq_ok_iff.1 h
  obtain rfl : ⟨r, .directory⟩ = place := Except.ok.inj (hroot.symm.trans hplace)
  obtain ⟨found, hfound, hlist⟩ := mapM_visit_eq_ok hvisits
  exact ⟨found, hfound, collected_of_wanted hr hlist⟩

end Bundle

end Atelier
