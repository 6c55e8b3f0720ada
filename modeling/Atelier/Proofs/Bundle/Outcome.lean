import Atelier.Proofs.Bundle.Confinement
import Atelier.Proofs.Bundle.RoundTrip
import Atelier.Proofs.Bundle.Overwrite

/-!
# What writing leaves behind

A bundle may be written over any tree: its prefix need not be there yet, and files may stand where
its entries go. What a successful writing leaves is then known in full (`WrittenOver`). Each file
that an entry is for holds the last body for it, the directories leading to these files are there,
and everything else is as it was.

One entry is written over a tree in this sense, and what was written over a tree can be written over
once more.
-/

namespace Atelier

open FileTree Atelier.Action FileAction

namespace FileTree

/-- Directories that were made up to one that is there are all there. -/
theorem Opens.directory_iff {t t' : FileTree} {k l : Location}
    (h : Opens [] (k.map Name.bytes) t t') (hk : t'.get? k = some .directory) :
    t'.get? l = some .directory ↔
      t.get? l = some .directory ∨ l.map Name.bytes <+: k.map Name.bytes := by
  constructor
  · intro hl
    rcases h l with hsame | ⟨-, -, m, hm, hway⟩
    · exact .inl (hsame ▸ hl)
    · obtain rfl : l = m := hm
      exact .inr hway
  · rintro (hl | hl)
    · exact h.directory hl
    · obtain ⟨back, rfl⟩ := (List.prefix_map_iff_of_injective Name.bytes_injective).1 hl
      by_cases hback : back = []
      · rwa [hback, List.append_nil] at hk
      · exact get?_of_append hback hk

end FileTree

namespace Bundle

variable {t t' t₁ : FileTree} {base : Bytes} {b more : Bundle} {e : Entry} {names : List Bytes}

theorem lastBody?_append (b more : Bundle) (names : List Bytes) :
    lastBody? (b ++ more) names = (lastBody? more names).or (lastBody? b names) := by
  rw [lastBody?, List.reverse_append, List.find?_append, Option.map_or]
  rfl

theorem lastBody?_eq_none_iff : lastBody? b names = none ↔ ∀ e ∈ b, e.names ≠ names := by
  simp [lastBody?]

/-! ## Written over a tree -/

/-- Whether a tree is what is left when some entries were written below a prefix of another tree. -/
structure WrittenOver (base : Bytes) (t : FileTree) (b : Bundle) (t' : FileTree) : Prop where
  named : ∀ e ∈ b, ∃ l : Location, l.map Name.bytes = e.way base
  last : ∀ (l : Location) names body, l.map Name.bytes = Path.components base ++ names →
    lastBody? b names = some body → t'.get? l = some (.file body.toByteArray)
  others : ∀ (l : Location) content, (∀ e ∈ b, l.map Name.bytes ≠ e.way base) →
    (t'.get? l = some (.file content) ↔ t.get? l = some (.file content))
  directory_iff : ∀ l : Location, t'.get? l = some .directory ↔
    t.get? l = some .directory ∨ ∃ e ∈ b, l.map Name.bytes <+: (e.way base).dropLast

theorem WrittenOver.refl (base : Bytes) (t : FileTree) : WrittenOver base t [] t where
  named := by simp
  last := by simp
  others := by simp
  directory_iff := by simp

theorem WrittenOver.trans (h : WrittenOver base t b t₁) (h' : WrittenOver base t₁ more t') :
    WrittenOver base t (b ++ more) t' where
  named := List.forall_mem_append.2 ⟨h.named, h'.named⟩
  last := by
    intro l names body hl hlast
    rw [lastBody?_append] at hlast
    cases hmore : lastBody? more names with
    | some body' =>
      rw [hmore, Option.some_or] at hlast
      exact h'.last l names body hl (hmore.trans hlast)
    | none =>
      rw [hmore, Option.none_or] at hlast
      refine (h'.others l _ ?_).2 (h.last l names body hl hlast)
      intro e he hway
      rw [hl, Entry.way, List.append_cancel_left_eq] at hway
      exact lastBody?_eq_none_iff.1 hmore e he hway.symm
  others := by
    intro l content hl
    rw [List.forall_mem_append] at hl
    rw [h'.others l content hl.2, h.others l content hl.1]
  directory_iff := by
    intro l
    rw [h'.directory_iff, h.directory_iff, or_assoc]
    simp only [List.mem_append, or_and_right, exists_or]

/-! ## Writing entries -/

/-- **One entry is written over a tree.** -/
theorem writtenOver_of_writeTarget (hbase : Path.up ∉ Path.components base) (he : IsSafe e)
    (hrun : (writeTarget (place base e) e.body).on t = (.ok (), t')) :
    WrittenOver base t [e] t' := by
  obtain ⟨t₁, hopens, ⟨err, hfailed⟩ | ⟨k, n, hway, -, haccepts, hput⟩⟩ :=
    writeTarget_place_cases hbase he e.body t
  · simp [hfailed] at hrun
  rw [hput] at hrun
  obtain rfl := (Prod.mk.inj hrun).2
  have hdropLast : (e.way base).dropLast = k.map Name.bytes := by
    rw [← hway, List.map_append, List.map_singleton, List.dropLast_concat]
  have hat : ∀ l : Location, l.map Name.bytes = e.way base ↔ l = k ++ [n] := by
    intro l
    rw [← hway, Location.map_bytes_inj]
  have hopens : Opens [] (k.map Name.bytes) t t₁ := hdropLast ▸ hopens
  refine ⟨?_, ?_, ?_, ?_⟩
  · rw [List.forall_mem_singleton]
    exact ⟨k ++ [n], hway⟩
  · intro l names body hl hlast
    obtain ⟨e', he', rfl, rfl⟩ := exists_of_lastBody? hlast
    obtain rfl := List.mem_singleton.1 he'
    rw [(hat l).1 hl, get?_put_self haccepts]
  · intro l content hl
    rw [List.forall_mem_singleton, Ne, hat] at hl
    rw [get?_put_of_ne hl, hopens.file_iff]
  · intro l
    simp only [List.mem_singleton, exists_eq_left, hdropLast]
    rw [← hopens.directory_iff haccepts.1]
    by_cases hl : l = k ++ [n]
    · -- The file has no directory in its place, neither now nor before.
      rw [hl, get?_put_self haccepts]
      exact iff_of_false (by simp) haccepts.2
    · rw [get?_put_of_ne hl]

theorem writtenOver_of_writeEntries (hbase : Path.up ∉ Path.components base)
    (hsafe : ∀ e ∈ b, IsSafe e) (hrun : (writeEntries base b).on t = (.ok (), t')) :
    WrittenOver base t b t' := by
  induction b generalizing t with
  | nil =>
    obtain rfl : t = t' := congrArg Prod.snd hrun
    exact .refl base t
  | cons e rest ih =>
    rw [List.forall_mem_cons] at hsafe
    rw [on_writeEntries_cons] at hrun
    rcases hfirst : (writeTarget (place base e) e.body).on t with ⟨err | ⟨⟩, t₁⟩
    · simp [hfirst] at hrun
    · rw [hfirst] at hrun
      exact (writtenOver_of_writeTarget hbase hsafe.1 hfirst).trans (ih hsafe.2 hrun)

/-- **What a successful writing leaves behind.** It tells one path for each entry, in order: the
prefix with the path of the entry behind it, less one leading `./`. Then the bundle is written over
the tree, whatever was there before. -/
theorem writtenOver_of_writeTo {written : List Bytes} (hbase : Path.up ∉ Path.components base)
    (h : (b.writeTo base).on t = (.ok written, t')) :
    (written = b.map fun e => Path.join base (stripCurrent e.path)) ∧ WrittenOver base t b t' := by
  obtain ⟨hsafe, hwritten, hentries⟩ := on_writeTo_eq_ok_iff.1 h
  exact ⟨hwritten, writtenOver_of_writeEntries hbase hsafe hentries⟩

example :
    (["a/b", "./a/b", "a/./b", "a//b", "././a/b"].map fun path => (⟨path, ""⟩ : Entry).names) =
      List.replicate 5 (["a", "b"] : List Bytes) := by decide

namespace Desk

/-- Three entries for two files, one of which is on the desk already. -/
def revision : Bundle :=
  [⟨"./b.txt", "three"⟩, ⟨"x//c", "four"⟩, ⟨"x/./c", "five"⟩]

/-- The tree after the revision was written over its texts. -/
def revised : FileTree :=
  ((revision.writeTo "source").on tree).2

end Desk

open Desk in
/-- The revision can be written over the texts, and one of these is then replaced. -/
theorem writtenOver_of_writeTo_desk :
    Path.up ∉ Path.components "source" ∧
      (revision.writeTo "source").on tree =
        (.ok ["source/b.txt", "source/x//c", "source/x/./c"], revised) ∧
      WrittenOver "source" tree revision revised ∧
      revised.get? [source, late] = some (.file "three".toByteArray) := by
  have hbase : Path.up ∉ Path.components "source" := by decide
  have hok : ((revision.writeTo "source").on tree).1 =
      .ok ["source/b.txt", "source/x//c", "source/x/./c"] := by decide +kernel
  have hrun : (revision.writeTo "source").on tree =
      (.ok ["source/b.txt", "source/x//c", "source/x/./c"], revised) := by
    rw [revised, ← hok]
  have hover := (writtenOver_of_writeTo hbase hrun).2
  exact ⟨hbase, hrun, hover, hover.last [source, late] ["b.txt"] "three" rfl rfl⟩

end Bundle

end Atelier
