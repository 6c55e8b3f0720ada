import Atelier.Proofs.Bundle.Normal
import Atelier.Proofs.Bundle.Writable
import Atelier.Proofs.FileSystem.Contents

/-!
# Bundles that write the same

Writing two bundles comes to the same when they name the same paths and agree on the last body for
each file (`SameFiles`). Neither the order of the entries nor the bodies in front of a last one
matter: not for success, which is a matter of the paths, and not for the tree that is left, which is
determined by what was written over what. A bundle put behind itself is such a case. So a bundle
that was written can be written once more, and then nothing changes.
-/

namespace Atelier

open FileTree Atelier.Action FileAction

theorem Entry.names_congr {e e' : Entry} (h : e.path = e'.path) : e.names = e'.names := by
  rw [names, names, h]

theorem Entry.way_congr {base : Bytes} {e e' : Entry} (h : e.path = e'.path) :
    e.way base = e'.way base := by
  rw [way, way, names_congr h]

namespace Bundle

variable {t t' t₁ t₂ : FileTree} {base : Bytes} {b b' more : Bundle} {e e' : Entry} {l : Location}

/-! ## The same files -/

/-- Whether two bundles name the same paths, and the same last body for each file. -/
structure SameFiles (b b' : Bundle) : Prop where
  path_iff : ∀ path, path ∈ b.map Entry.path ↔ path ∈ b'.map Entry.path
  last : ∀ e ∈ b, lastBody? b e.names = lastBody? b' e.names

/-- What the one bundle names by a path, the other names too. -/
theorem SameFiles.exists_mem (h : SameFiles b b') (he : e ∈ b) :
    ∃ e' ∈ b', e'.path = e.path :=
  List.mem_map.1 ((h.path_iff e.path).1 (List.mem_map_of_mem he))

theorem SameFiles.symm (h : SameFiles b b') : SameFiles b' b where
  path_iff := fun path => (h.path_iff path).symm
  last := by
    intro e he
    obtain ⟨e', he', hpath⟩ := List.mem_map.1 ((h.path_iff e.path).2 (List.mem_map_of_mem he))
    rw [← Entry.names_congr hpath]
    exact (h.last e' he').symm

/-- **Entries can be listed in any order**, as long as no two of them are for one file. -/
theorem sameFiles_of_perm (hperm : b.Perm b') (hnodup : (b.map Entry.names).Nodup) :
    SameFiles b b' where
  path_iff := fun path => (hperm.map Entry.path).mem_iff
  last := by
    have hself : ∀ b : Bundle, (b.map Entry.names).Nodup → ∀ e ∈ b,
        lastBody? b e.names = some e.body := by
      intro b hnodup e he
      obtain ⟨body, hlast⟩ := exists_lastBody? he
      obtain ⟨e', he', hnames, rfl⟩ := exists_of_lastBody? hlast
      rw [hlast, List.inj_on_of_nodup_map hnodup he' he hnames]
    intro e he
    rw [hself b hnodup e he,
      hself b' ((hperm.map Entry.names).nodup_iff.1 hnodup) e (hperm.mem_iff.1 he)]

/-- A bundle behind itself names nothing new. -/
theorem sameFiles_append_self (b : Bundle) : SameFiles b (b ++ b) where
  path_iff := by simp
  last := by
    intro e he
    obtain ⟨body, hlast⟩ := exists_lastBody? he
    rw [lastBody?_append, hlast, Option.some_or]

/-! ## The same success -/

theorem Fits.congr (hpath : e.path = e'.path) (h : Fits base e l) : Fits base e' l := by
  have hplace : place base e = place base e' := by rw [place, place, hpath]
  have hsafe : IsSafe e' := by
    rw [IsSafe, ← hpath]
    exact h.safe
  exact ⟨hsafe, h.way.trans (Entry.way_congr hpath), hplace ▸ h.last, hplace ▸ h.no_nul,
    hplace ▸ h.short⟩

/-- Whether a bundle can be written is a matter of the paths that it names. -/
theorem Writable.congr (hpaths : ∀ e' ∈ b', ∃ e ∈ b, e.path = e'.path) (h : Writable base t b) :
    Writable base t b' where
  fits := by
    intro e' he'
    obtain ⟨e, he, hpath⟩ := hpaths e' he'
    obtain ⟨l, hl⟩ := h.fits e he
    exact ⟨l, hl.congr hpath⟩
  no_directory := by
    intro e' he' l hl
    obtain ⟨e, he, hpath⟩ := hpaths e' he'
    exact h.no_directory e he l (hl.trans (Entry.way_congr hpath).symm)
  no_file := by
    intro e' he' l content hl
    obtain ⟨e, he, hpath⟩ := hpaths e' he'
    rw [← Entry.way_congr hpath] at hl
    exact h.no_file e he l content hl
  apart := by
    intro e₁' he₁' e₂' he₂'
    obtain ⟨e₁, he₁, hpath₁⟩ := hpaths e₁' he₁'
    obtain ⟨e₂, he₂, hpath₂⟩ := hpaths e₂' he₂'
    rw [← Entry.way_congr hpath₁, ← Entry.way_congr hpath₂]
    exact h.apart e₁ he₁ e₂ he₂

/-! ## The same tree -/

/-- What stands anywhere after writing is known from the same files. -/
theorem WrittenOver.get?_eq_some (hsame : SameFiles b b') (h : WrittenOver base t b t₁)
    (h' : WrittenOver base t b' t₂) {item : Item} (hitem : t₁.get? l = some item) :
    t₂.get? l = some item := by
  cases item with
  | directory =>
    rw [h.directory_iff] at hitem
    rw [h'.directory_iff]
    rcases hitem with hold | ⟨e, he, hway⟩
    · exact .inl hold
    · obtain ⟨e', he', hpath⟩ := hsame.exists_mem he
      exact .inr ⟨e', he', Entry.way_congr hpath ▸ hway⟩
  | file content =>
    by_cases hnamed : ∃ e ∈ b, l.map Name.bytes = e.way base
    · obtain ⟨e, he, hl⟩ := hnamed
      obtain ⟨body, hlast⟩ := exists_lastBody? he
      rw [h.last l e.names body hl hlast] at hitem
      rw [← hitem]
      exact h'.last l e.names body hl ((hsame.last e he).symm.trans hlast)
    · have hnamed' : ∀ e' ∈ b', l.map Name.bytes ≠ e'.way base := by
        intro e' he' hl
        obtain ⟨e, he, hpath⟩ := hsame.symm.exists_mem he'
        exact hnamed ⟨e, he, hl.trans (Entry.way_congr hpath).symm⟩
      rw [h'.others l content hnamed']
      exact (h.others l content (by simpa using hnamed)).1 hitem

/-- **What is written over a tree is determined by the same files.** -/
theorem WrittenOver.unique (hsame : SameFiles b b') (h : WrittenOver base t b t₁)
    (h' : WrittenOver base t b' t₂) : t₁ = t₂ := by
  apply eq_of_get?
  intro l
  apply Option.ext
  intro item
  exact ⟨h.get?_eq_some hsame h', h'.get?_eq_some hsame.symm h⟩

/-! ## Interchange -/

/-- Whether the one bundle is written exactly when the other is, and the same tree is left then. -/
def Interchangeable (base : Bytes) (t : FileTree) (b b' : Bundle) : Prop :=
  ∀ t', (∃ written, (b.writeTo base).on t = (.ok written, t')) ↔
    ∃ written, (b'.writeTo base).on t = (.ok written, t')

theorem exists_writeTo_of_sameFiles (hbase : Path.up ∉ Path.components base)
    (hsame : SameFiles b b') {written : List Bytes}
    (hrun : (b.writeTo base).on t = (.ok written, t')) :
    ∃ written', (b'.writeTo base).on t = (.ok written', t') := by
  have hwritable := (exists_writeTo_iff_writable hbase).1 ⟨written, t', hrun⟩
  obtain ⟨written', t₂, hrun'⟩ := (exists_writeTo_iff_writable hbase).2
    (hwritable.congr fun e' he' => hsame.symm.exists_mem he')
  have hover := (writtenOver_of_writeTo hbase hrun).2
  obtain rfl := hover.unique hsame (writtenOver_of_writeTo hbase hrun').2
  exact ⟨written', hrun'⟩

theorem on_writeEntries_append (hrun : (writeEntries base b).on t = (.ok (), t₁)) :
    (writeEntries base (b ++ more)).on t = (writeEntries base more).on t₁ := by
  induction b generalizing t with
  | nil =>
    obtain rfl : t = t₁ := congrArg Prod.snd hrun
    rfl
  | cons e rest ih =>
    rw [on_writeEntries_cons] at hrun
    rw [List.cons_append, on_writeEntries_cons]
    rcases hfirst : (writeTarget (place base e) e.body).on t with ⟨err | ⟨⟩, t₂⟩
    · simp [hfirst] at hrun
    · rw [hfirst] at hrun
      exact ih hrun

/-- **Order and repetition do not matter beyond the last bodies.** Bundles with the same files are
written over any tree with the same success and the same tree left. So entries for different files
can be permuted. And a bundle that was written can be written once more, which changes nothing. -/
theorem interchangeable_of_sameFiles (hbase : Path.up ∉ Path.components base) (t : FileTree) :
    (∀ b b', SameFiles b b' → Interchangeable base t b b') ∧
      (∀ b b' : Bundle, b.Perm b' → (b.map Entry.names).Nodup → Interchangeable base t b b') ∧
      ∀ (b : Bundle) written t', (b.writeTo base).on t = (.ok written, t') →
        (b.writeTo base).on t' = (.ok written, t') := by
  have hinterchange : ∀ b b', SameFiles b b' → Interchangeable base t b b' := by
    intro b b' hsame t'
    constructor
    · rintro ⟨written, hrun⟩
      exact exists_writeTo_of_sameFiles hbase hsame hrun
    · rintro ⟨written, hrun⟩
      exact exists_writeTo_of_sameFiles hbase hsame.symm hrun
  refine ⟨hinterchange, ?_, ?_⟩
  · intro b b' hperm hnodup
    exact hinterchange b b' (sameFiles_of_perm hperm hnodup)
  · intro b written t' hrun
    obtain ⟨written', htwice⟩ := exists_writeTo_of_sameFiles hbase (sameFiles_append_self b) hrun
    obtain ⟨hsafe, hwritten, honce⟩ := on_writeTo_eq_ok_iff.1 hrun
    obtain ⟨-, -, htwice⟩ := on_writeTo_eq_ok_iff.1 htwice
    rw [on_writeEntries_append honce] at htwice
    exact on_writeTo_eq_ok_iff.2 ⟨hsafe, hwritten, htwice⟩

namespace Desk

/-- The drafts in another order, with one body more that is not the last one. -/
def shuffled : Bundle :=
  [⟨"c", "four"⟩, ⟨"x/./b.txt", "five"⟩, ⟨"./x//b.txt", "three"⟩, ⟨"a.txt", "two"⟩]

end Desk

open Desk in
/-- The drafts and the shuffled drafts leave the same tree, and go on doing so. -/
theorem interchangeable_of_sameFiles_desk :
    Path.up ∉ Path.components "./copy" ∧ SameFiles drafts shuffled ∧
      (drafts.writeTo "./copy").on tree =
        (.ok ["./copy/x//b.txt", "./copy/a.txt", "./copy/x/./b.txt", "./copy/c"], drafted) ∧
      (∃ written, (shuffled.writeTo "./copy").on tree = (.ok written, drafted)) ∧
      (drafts.writeTo "./copy").on drafted =
        (.ok ["./copy/x//b.txt", "./copy/a.txt", "./copy/x/./b.txt", "./copy/c"], drafted) := by
  have hbase : Path.up ∉ Path.components "./copy" := by decide
  have hsame : SameFiles drafts shuffled := by
    refine ⟨?_, by decide⟩
    intro path
    simp only [drafts, shuffled, List.map_cons, List.map_nil, List.mem_cons, List.not_mem_nil,
      or_false]
    tauto
  have hok : ((drafts.writeTo "./copy").on tree).1 =
      .ok ["./copy/x//b.txt", "./copy/a.txt", "./copy/x/./b.txt", "./copy/c"] := by
    decide +kernel
  have hrun : (drafts.writeTo "./copy").on tree =
      (.ok ["./copy/x//b.txt", "./copy/a.txt", "./copy/x/./b.txt", "./copy/c"], drafted) := by
    rw [drafted, ← hok]
  obtain ⟨hinterchange, -, hagain⟩ := interchangeable_of_sameFiles hbase tree
  exact ⟨hbase, hsame, hrun, (hinterchange drafts shuffled hsame drafted).1 ⟨_, hrun⟩,
    hagain drafts _ drafted hrun⟩

end Bundle

end Atelier
