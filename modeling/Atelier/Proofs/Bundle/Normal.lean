import Atelier.Proofs.Bundle.Overwrite
import Atelier.Proofs.Bundle.Reach

/-!
# Writing and collecting

A bundle that was written into an empty directory can be collected from there. What comes back is
the bundle in normal form (`Normal`): one entry for each file, under the path that names it
directly, with the last body for it, and in order.

The paths of a bundle that was collected name files directly already. So it comes back as it is when
these paths are in order, as they are when the names of the files are texts. Names that are read as
one text leave one file.
-/

namespace Atelier

open FileTree Atelier.Action FileAction

namespace Path

theorem length_join_le (base : Bytes) {path longer : Bytes} (h : path.length ≤ longer.length) :
    (join base path).length ≤ (join base longer).length := by
  rw [join, join]
  split
  all_goals
    simp only [List.length_append, List.length_cons]
    omega

end Path

namespace Bundle

variable {t t' : FileTree} {root base : Bytes} {extension : String} {r p k l : Location}
  {place : Place} {d e : Entry} {b : Bundle} {found found' : List (Location × String)}
  {w : Location × String}

/-- What an entry leads through can be reached when the entry can be written. -/
theorem isTooLong_reach (hk : k ≠ []) (hway : k.map Name.bytes <+: e.names)
    (hshort : Path.isTooLong (Bundle.place base e) = false) :
    Path.isTooLong (reach base k) = false := by
  have hsub : (k.map Name.bytes).Sublist (Path.segments (stripCurrent e.path)) :=
    hway.sublist.trans List.filter_sublist
  have hlength := Path.length_join_le base (Path.length_ofSegments_le hsub)
  rw [Path.ofSegments_segments] at hlength
  rw [Bundle.place] at hshort
  rw [reach, if_neg hk]
  simp only [Path.isTooLong, decide_eq_false_iff_not] at hshort ⊢
  exact fun hlong => hshort (Nat.lt_of_lt_of_le hlong hlength)

/-! ## The normal form of a bundle -/

/-- Whether a list holds, each once and in order, the files with an extension that the entries of a
bundle are for, each with the last body for it. -/
structure Normal (b : Bundle) (extension : String) (found : List (Location × String)) : Prop where
  sorted : found.Pairwise fun v w => compare v.1 w.1 = .lt
  mem_iff : ∀ k body, (k, body) ∈ found ↔
    k.getLast?.bind Name.extension? = some (Text.bytes extension) ∧
      lastBody? b (k.map Name.bytes) = some body

/-- A bundle has one normal form, so what is collected is told by it entirely. -/
theorem Normal.unique (h : Normal b extension found) (h' : Normal b extension found') :
    found = found' := by
  have hsorted : Increasing compare Prod.fst found := h.sorted
  apply hsorted.eq_of_mem_iff h'.sorted
  rintro ⟨k, body⟩
  rw [h.mem_iff, h'.mem_iff]

/-- A file in the normal form of a bundle is the file of an entry. -/
theorem Normal.exists_entry (h : Normal b extension found) (hw : w ∈ found) :
    ∃ e ∈ b, w.1.map Name.bytes = e.names ∧ w.2 = e.body := by
  obtain ⟨e, he, hnames, hbody⟩ := exists_of_lastBody? ((h.mem_iff w.1 w.2).1 hw).2
  exact ⟨e, he, hnames.symm, hbody.symm⟩

/-- The root is the file of no entry that has an extension. -/
theorem Normal.ne_nil (h : Normal b extension found) (hw : w ∈ found) : w.1 ≠ [] := by
  intro hnil
  have hextension := ((h.mem_iff w.1 w.2).1 hw).1
  simp [hnil] at hextension

/-- The entries of a normal form are in order. -/
theorem Normal.ascending (h : Normal b extension found) : Ascending (found.map entryAt) := by
  refine ascending_of_isText h.sorted (fun w hw => h.ne_nil hw) fun w hw => ?_
  obtain ⟨e, -, hnames, -⟩ := h.exists_entry hw
  exact Location.isText_path_iff.2 (Location.isText_of_components hnames)

/-- What was written into an empty directory is collected in normal form. -/
theorem Leaves.normal (h : Leaves base p b t) (hbase : t.find base = .ok ⟨p, .directory⟩)
    (extension : String) :
    ∃ found : List (Location × String),
      collect t base extension = .ok (found.map entryAt) ∧ Normal b extension found := by
  have hp := get?_of_walk h.walk
  -- A file that is collected is the place of an entry, and holds the body of it.
  have hentry : ∀ k content, IsCollectable t p extension k content →
      ∃ e ∈ b, e.names = k.map Name.bytes ∧ content = e.body.toByteArray := by
    intro k content hk
    obtain ⟨body, hbody, hcontent⟩ := (h.file_iff k content hk.ne_nil).1 hk.1
    obtain ⟨e, he, hnames, rfl⟩ := exists_of_lastBody? hbody
    exact ⟨e, he, hnames, hcontent⟩
  have hreach : Reachable t base p extension := by
    refine ⟨?_, ?_⟩
    · intro k hk hdir
      obtain ⟨e, he, hway⟩ := h.directory k hk hdir
      exact isTooLong_reach hk hway (h.short e he)
    · intro k content hk
      obtain ⟨e, he, hnames, -⟩ := hentry k content hk
      exact isTooLong_reach hk.ne_nil (hnames ▸ List.prefix_refl _) (h.short e he)
  have htext : ∀ k content, IsCollectable t p extension k content →
      ∃ text : String, content = text.toByteArray := by
    intro k content hk
    obtain ⟨e, -, -, hcontent⟩ := hentry k content hk
    exact ⟨e.body, hcontent⟩
  obtain ⟨_, hcollect⟩ := (exists_collect_iff hbase).2 ⟨hreach, htext⟩
  obtain ⟨found, rfl, hfound⟩ := exists_of_collect_eq_ok hbase hcollect
  refine ⟨found, hcollect, hfound.sorted, ?_⟩
  intro k body
  rw [hfound.mem_iff, IsCollectable, and_comm, and_congr_right_iff]
  intro hextension
  have hk : k ≠ [] := by
    rintro rfl
    simp at hextension
  rw [h.file_iff k _ hk]
  simp [String.toByteArray_inj]

/-! ## Bundles that were collected -/

/-- A location of the names that an entry leads to has the path of the entry. -/
theorem entryPath_of_names (hw : w.1 ≠ []) (h : l.map Name.bytes = (entryAt w).names) :
    entryPath l = (entryAt w).path := by
  have htexts : l.map Name.text = w.1.map Name.text := by
    rw [names_entryAt hw] at h
    have hread := congrArg (List.map Text.lossy) h
    simp only [List.map_map, Function.comp_def, Text.lossy_bytes] at hread
    exact hread
  rw [entryPath, entryAt, entryPath, Location.text, Location.text, htexts]

/-- Entries for one file have one path, so in a bundle in order there is one of them. -/
theorem eq_of_names (hne : ∀ w ∈ found, w.1 ≠ []) (h : Ascending (found.map entryAt))
    (hd : d ∈ found.map entryAt) (he : e ∈ found.map entryAt) (hnames : d.names = e.names) :
    d = e := by
  refine List.inj_on_of_nodup_map h.nodup_map hd he ?_
  obtain ⟨v, hv, rfl⟩ := List.mem_map.1 hd
  obtain ⟨w, hw, rfl⟩ := List.mem_map.1 he
  rw [names_entryAt (hne v hv), names_entryAt (hne w hw)] at hnames
  dsimp only [entryAt]
  rw [segments_entryPath (hne v hv), segments_entryPath (hne w hw), hnames]

theorem lastBody?_of_mem (he : e ∈ b) (hone : ∀ d ∈ b, d.names = e.names → d = e) :
    lastBody? b e.names = some e.body := by
  cases hlast : lastBody? b e.names with
  | none =>
    rw [lastBody?, Option.map_eq_none_iff, List.find?_eq_none] at hlast
    simpa using hlast e (List.mem_reverse.2 he)
  | some body =>
    obtain ⟨d, hd, hnames, rfl⟩ := exists_of_lastBody? hlast
    rw [hone d hd hnames]

/-- Whatever was collected is in order, and is collectable unless it is the root itself. -/
theorem exists_of_collect (hplace : t.find root = .ok place)
    (h : collect t root extension = .ok b) :
    ∃ found : List (Location × String), b = found.map entryAt ∧
      Increasing compare Prod.fst found ∧
      ∀ w ∈ found, w.1 ≠ [] →
        IsCollectable t place.location extension w.1 w.2.toByteArray := by
  obtain ⟨place', visits, hplace', hvisits, rfl⟩ := collect_eq_ok_iff.1 h
  obtain rfl : place = place' := Except.ok.inj (hplace.symm.trans hplace')
  obtain ⟨found, hfound, hlist⟩ := mapM_visit_eq_ok hvisits
  refine ⟨found, hfound, ?_, ?_⟩
  · have hsorted := pairwise_wanted t place.location extension
    rw [← hlist, List.pairwise_map] at hsorted
    exact hsorted
  · intro w hw hne
    have hmem := List.mem_map_of_mem (f := fun w => (w.1, Item.file w.2.toByteArray)) hw
    rw [hlist] at hmem
    obtain ⟨⟨l, item⟩, hwanted, hsame⟩ := List.mem_map.1 hmem
    obtain ⟨hbelow, hwanted⟩ := List.mem_filter.1 hwanted
    obtain ⟨-, ⟨k, rfl⟩, hget⟩ := mem_below_iff.1 hbelow
    simp only [List.drop_left, Prod.mk.injEq] at hsame
    obtain ⟨rfl, rfl⟩ := hsame
    refine ⟨hget, ?_⟩
    simpa [isWanted, List.getLast?_append_of_ne_nil _ hne] using hwanted

/-- No file that can be written is the root that was collected. -/
theorem ne_nil_of_isSafe (hsafe : ∀ e ∈ found.map entryAt, IsSafe e) : ∀ w ∈ found, w.1 ≠ [] := by
  intro w hw hnil
  have hpath := (isSafe_iff.1 (hsafe _ (List.mem_map_of_mem hw))).1
  rw [entryAt, stripCurrent_entryPath, hnil] at hpath
  exact hpath rfl

/-- **A bundle that was collected and is in order is its own normal form**, if it can be written. -/
theorem eq_of_normal (hne : ∀ w ∈ found', w.1 ≠ [])
    (hextension : ∀ w ∈ found', w.1.getLast?.bind Name.extension? = some (Text.bytes extension))
    (hnamed : ∀ e ∈ found'.map entryAt, ∃ l : Location, l ≠ [] ∧ l.map Name.bytes = e.names)
    (h : Normal (found'.map entryAt) extension found)
    (hascending : Ascending (found'.map entryAt)) :
    found.map entryAt = found'.map entryAt := by
  refine h.ascending.eq_of_mem_iff hascending fun e => ?_
  constructor
  · intro he
    obtain ⟨v, hv, rfl⟩ := List.mem_map.1 he
    obtain ⟨e', he', hnames, hbody⟩ := h.exists_entry hv
    obtain ⟨w, hw, rfl⟩ := List.mem_map.1 he'
    have hpath := entryPath_of_names (hne w hw) hnames
    rw [entryAt, hpath, hbody]
    exact he'
  · intro he
    obtain ⟨w, hw, rfl⟩ := List.mem_map.1 he
    obtain ⟨l, hl, hnames⟩ := hnamed _ he
    have hlast : lastBody? (found'.map entryAt) (l.map Name.bytes) = some w.2 :=
      hnames ▸ lastBody?_of_mem he fun d hd => eq_of_names hne hascending hd he
    have hl : l.getLast?.bind Name.extension? = some (Text.bytes extension) := by
      have hends := congrArg List.getLast? (hnames.trans (names_entryAt (hne w hw)))
      obtain ⟨n, hn, hextension⟩ := Option.bind_eq_some_iff.1 (hextension w hw)
      rw [List.getLast?_map, List.getLast?_map, hn] at hends
      obtain ⟨m, hm, hbytes⟩ := Option.map_eq_some_iff.1 hends
      rw [hm]
      exact Name.extension?_of_text hbytes hextension
    refine List.mem_map.2 ⟨(l, w.2), (h.mem_iff l w.2).2 ⟨hl, hlast⟩, ?_⟩
    rw [entryAt, entryPath_of_names (hne w hw) hnames]
    rfl

/-- **Writing and collecting are inverse up to normal form.** After a bundle was written into an
empty directory, collecting the directory succeeds and gives the bundle in normal form, for every
extension. A bundle that was collected with this extension comes back as it was exactly when its
paths are in order, so whenever the names of its files are texts. -/
theorem collect_writeTo {written : List Bytes} (hbase : t.find base = .ok ⟨p, .directory⟩)
    (hempty : ∀ l, l ≠ [] → t.get? (p ++ l) = none)
    (hwrite : (b.writeTo base).on t = (.ok written, t')) (extension : String) :
    (∀ e ∈ b, ∃ l : Location, l ≠ [] ∧ l.map Name.bytes = e.names) ∧
      (∃ found : List (Location × String),
        collect t' base extension = .ok (found.map entryAt) ∧ Normal b extension found) ∧
      ∀ t₀ root place, t₀.find root = .ok place → collect t₀ root extension = .ok b →
        (collect t' base extension = .ok b ↔ Ascending b) ∧
        (HasTextPaths t₀ place.location extension → collect t' base extension = .ok b) := by
  obtain ⟨hsafe, -, hentries⟩ := on_writeTo_eq_ok_iff.1 hwrite
  obtain ⟨hchecked, hwalk⟩ := find_eq_ok_iff.1 hbase
  have hleaves := (leaves_nil hwalk hempty).writeEntries hsafe hentries
  rw [List.nil_append] at hleaves
  have hbase' : t'.find base = .ok ⟨p, .directory⟩ := find_eq_ok_iff.2 ⟨hchecked, hleaves.walk⟩
  obtain ⟨found, hcollect, hnormal⟩ := hleaves.normal hbase' extension
  refine ⟨hleaves.named, ⟨found, hcollect, hnormal⟩, ?_⟩
  intro t₀ root place hplace hcollected
  obtain ⟨found₀, rfl, hsorted, hcollectable⟩ := exists_of_collect hplace hcollected
  have hne := ne_nil_of_isSafe hsafe
  have hback : collect t' base extension = .ok (found₀.map entryAt) ↔
      Ascending (found₀.map entryAt) := by
    rw [hcollect, Except.ok.injEq]
    constructor
    · intro heq
      exact heq ▸ hnormal.ascending
    · intro hascending
      exact eq_of_normal hne (fun w hw => (hcollectable w hw (hne w hw)).2) hleaves.named hnormal
        hascending
  refine ⟨hback, fun htext => hback.2 ?_⟩
  exact ascending_of_isText hsorted hne fun w hw => htext w.1 _ (hcollectable w hw (hne w hw))

namespace Desk

/-- Four entries for three files, two of which are texts. -/
def drafts : Bundle :=
  [⟨"./x//b.txt", "one"⟩, ⟨"a.txt", "two"⟩, ⟨"x/./b.txt", "three"⟩, ⟨"c", "four"⟩]

/-- The tree after the drafts were written into its empty directory. -/
def drafted : FileTree :=
  ((drafts.writeTo "./copy").on tree).2

end Desk

open Desk in
/-- The drafts can be written, and what is collected then is one entry for each text. -/
theorem collect_writeTo_desk :
    (collect drafted "./copy" "txt").toOption =
        some [⟨"./a.txt", "two"⟩, ⟨"./x/b.txt", "three"⟩] ∧
      ∃ found, collect drafted "./copy" "txt" = .ok (found.map entryAt) ∧
        Normal drafts "txt" found := by
  have hbase : tree.find "./copy" = .ok ⟨[copy], .directory⟩ := rfl
  have hok : ((drafts.writeTo "./copy").on tree).1 = .ok (drafts.map (place "./copy")) := by
    decide +kernel
  have hwrite : (drafts.writeTo "./copy").on tree =
      (.ok (drafts.map (place "./copy")), drafted) := by rw [drafted, ← hok]
  exact ⟨by decide +kernel, (collect_writeTo hbase (fun l => get?_copy) hwrite "txt").2.1⟩

namespace Desk

/-- The two entries of the twins, which have one path. -/
def twinEntries : Bundle :=
  [⟨"./\uFFFD.rs", "one"⟩, ⟨"./\uFFFD.rs", "two"⟩]

/-- The tree after the twins were written into its empty directory. -/
def twinned : FileTree :=
  ((twinEntries.writeTo "./copy").on twins).2

end Desk

open Desk in
/-- A directory can be there and be empty, and its path text too long. Then no entries can be
written there, but none can be collected. And the entries of the twins are written to one file, so
one of them comes back. -/
theorem collect_writeTo_limits :
    (tree.walk (Path.segments (padded 2100 copy.bytes)) = .ok ⟨[copy], .directory⟩ ∧
      (∀ l, l ≠ [] → tree.get? ([copy] ++ l) = none) ∧
      (writeTo [] (padded 2100 copy.bytes)).on tree = (.ok [], tree) ∧
      ¬ ∃ b, collect tree (padded 2100 copy.bytes) "txt" = .ok b) ∧
    twins.find "./copy" = .ok ⟨[copy], .directory⟩ ∧
      (∀ l, l ≠ [] → twins.get? ([copy] ++ l) = none) ∧
      collect twins "source" "rs" = .ok twinEntries ∧
      (∃ paths, (twinEntries.writeTo "./copy").on twins = (.ok paths, twinned)) ∧
      collect twinned "./copy" "rs" = .ok [⟨"./\uFFFD.rs", "two"⟩] := by
  have hcopy : tree.get? [copy] = some .directory := rfl
  have hnothing : (writeTo [] (padded 2100 copy.bytes)).on tree = (.ok [], tree) :=
    on_writeTo_eq_ok_iff.2 ⟨List.forall_mem_nil _, rfl, rfl⟩
  refine ⟨⟨walk_padded 2100 hcopy, fun l => get?_copy, hnothing, ?_⟩, rfl,
    fun l => get?_copy_twins, rfl, ⟨twinEntries.map (place "./copy"), ?_⟩, ?_⟩
  · rintro ⟨b, hb⟩
    obtain ⟨place, -, hplace, -⟩ := collect_eq_ok_iff.1 hb
    have hlong := (find_eq_ok_iff.1 hplace).1.2.2
    rw [Path.isTooLong, decide_eq_false_iff_not, length_padded] at hlong
    omega
  · have hok : ((twinEntries.writeTo "./copy").on twins).1 =
        .ok (twinEntries.map (place "./copy")) := by decide +kernel
    rw [twinned, ← hok]
  · decide +kernel

end Bundle

end Atelier
