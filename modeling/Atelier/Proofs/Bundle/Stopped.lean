import Atelier.Proofs.Bundle.Check
import Atelier.Proofs.Bundle.Outcome

/-!
# When writing stops

Writing stops at the first entry that cannot be written, because a directory on the way to its file
cannot be made or because the file cannot. The entries in front of it are then written as if there
were no others. Of the entry itself there are at most new directories on the way to its file, and
nothing of those behind it.
-/

namespace Atelier

open FileTree Atelier.Action FileAction

namespace Bundle

variable {t t' t₁ : FileTree} {base : Bytes} {b : Bundle} {e : Entry} {err : ToolError}

/-- Whether a tree has nothing more than another but new directories on the way to the file of an
entry, with no file in them. -/
structure OpenedFor (base : Bytes) (e : Entry) (t t' : FileTree) : Prop where
  file_iff : ∀ l content,
    t'.get? l = some (.file content) ↔ t.get? l = some (.file content)
  new_directory : ∀ l : Location, t'.get? l ≠ t.get? l →
    t.get? l = none ∧ t'.get? l = some .directory ∧ l.map Name.bytes <+: (e.way base).dropLast
  no_file_inside : ∀ l k content, t'.get? l ≠ t.get? l → t'.get? (l ++ k) ≠ some (.file content)

theorem openedFor_of_opens (h : Opens [] (e.way base).dropLast t t') : OpenedFor base e t t' := by
  have hnew : ∀ l : Location, t'.get? l ≠ t.get? l → t.get? l = none ∧
      t'.get? l = some .directory ∧ l.map Name.bytes <+: (e.way base).dropLast := by
    intro l hl
    rcases h l with hsame | ⟨hnone, hdir, k, hk, hway⟩
    · exact absurd hsame hl
    · obtain rfl : l = k := hk
      exact ⟨hnone, hdir, hway⟩
  refine ⟨fun l content => h.file_iff, hnew, ?_⟩
  intro l k content hl hfile
  obtain ⟨hnone, hdir, -⟩ := hnew l hl
  have hold : t.get? (l ++ k) = some (.file content) := h.file_iff.1 hfile
  by_cases hk : k = []
  · simp [hk, hdir] at hfile
  · -- A file in the new directory was there before, so the directory was too.
    have hthere := get?_of_append hk hold
    simp [hnone] at hthere

/-- An entry that cannot be written leaves directories on its way. -/
theorem openedFor_of_writeTarget {cause : IoError} (hbase : Path.up ∉ Path.components base)
    (he : IsSafe e) (hrun : (writeTarget (place base e) e.body).on t = (.error cause, t')) :
    OpenedFor base e t t' := by
  obtain ⟨t₁, hopens, ⟨err, hfailed⟩ | ⟨k, n, -, -, -, hput⟩⟩ :=
    writeTarget_place_cases hbase he e.body t
  · rw [hfailed] at hrun
    obtain rfl := (Prod.mk.inj hrun).2
    exact openedFor_of_opens hopens
  · simp [hput] at hrun

/-- **What is left when writing stops.** If the paths of a bundle pass the check, then only the file
system can refuse it, at one of its entries. The entries in front of this one are written just as
they would be without the others, and on the tree that they leave the entry fails by itself. It
leaves at most new directories without files on its way, and the entries behind it leave nothing. -/
theorem stopped_of_writeTo (hbase : Path.up ∉ Path.components base)
    (hsafe : ∀ e ∈ b, ¬ Escapes e.path) (h : (b.writeTo base).on t = (.error err, t')) :
    (∃ cause, err = .io cause) ∧
    ∃ k, ∃ hk : k < b.length, ∃ written t₁,
      (writeTo (b.take k) base).on t = (.ok written, t₁) ∧
      (writeTo [b[k]] base).on t₁ = (.error err, t') ∧ OpenedFor base b[k] t₁ t' := by
  have hsafe : ∀ e ∈ b, IsSafe e := fun e he => isSafe_iff_not_escapes.2 (hsafe e he)
  obtain ⟨done, e, rest, t₁, cause, rfl, hdone, herror, rfl⟩ :=
    exists_of_writeEntries_eq_error ((on_writeTo_eq_error_iff hsafe).1 h)
  have hk : done.length < (done ++ e :: rest).length := by simp
  have htake : (done ++ e :: rest).take done.length = done := List.take_left
  have hget : (done ++ e :: rest)[done.length] = e := by simp
  have hdoneSafe : ∀ e ∈ done, IsSafe e := fun e he => hsafe e (List.mem_append_left _ he)
  have he : IsSafe e := hsafe e (by simp)
  refine ⟨⟨cause, rfl⟩, done.length, hk, done.map (place base), t₁, ?_, ?_, ?_⟩
  · rw [htake]
    exact on_writeTo_eq_ok_iff.2 ⟨hdoneSafe, rfl, hdone⟩
  · rw [hget, on_writeTo_eq_error_iff (by simpa using he), on_writeEntries_cons, herror]
  · rw [hget]
    exact openedFor_of_writeTarget hbase he herror

namespace Desk

/-- A text, a path that can only mean a directory, and another text. -/
def torn : Bundle :=
  [⟨"a.txt", "three"⟩, ⟨"./x/c/", "four"⟩, ⟨"b.txt", "five"⟩]

/-- The tree after writing stopped at the second entry. -/
def halfway : FileTree :=
  ((torn.writeTo "source").on tree).2

end Desk

open Desk in
/-- Writing stops at the path that means a directory. -/
theorem stopped_of_writeTo_desk :
    Path.up ∉ Path.components "source" ∧ (∀ e ∈ torn, ¬ Escapes e.path) ∧
      (torn.writeTo "source").on tree = (.error (.io (.os .isADirectory)), halfway) ∧
      ∃ k, ∃ hk : k < torn.length, ∃ written t₁,
        (writeTo (torn.take k) "source").on tree = (.ok written, t₁) ∧
        OpenedFor "source" torn[k] t₁ halfway := by
  have hbase : Path.up ∉ Path.components "source" := by decide
  have hsafe : ∀ e ∈ torn, ¬ Escapes e.path := by decide
  have herror : ((torn.writeTo "source").on tree).1 = .error (.io (.os .isADirectory)) := by
    decide +kernel
  have hrun : (torn.writeTo "source").on tree =
      (.error (.io (.os .isADirectory)), halfway) := by
    rw [halfway, ← herror]
  obtain ⟨-, k, hk, written, t₁, hdone, -, hopened⟩ := stopped_of_writeTo hbase hsafe hrun
  exact ⟨hbase, hsafe, hrun, k, hk, written, t₁, hdone, hopened⟩

end Bundle

end Atelier
