import Atelier.Proofs.Bundle.Check
import Atelier.Proofs.Bundle.RoundTrip

/-!
# Bundles that are refused

The path of a collected file is made on one side and checked on another. The two agree below a
directory: what was collected there is never refused for a path (`isSafe_of_collect`). They do not
agree on a root that is a file to be collected itself. Its way from the root is empty, so it is
collected under `./` alone, which names nothing below a prefix and is refused under every prefix.
-/

namespace Atelier

open FileTree Atelier.Action FileAction

namespace Bundle

variable {t : FileTree} {root base : Bytes} {extension path : String} {r : Location}
  {content : ByteArray}
  {b : Bundle} {e : Entry} {err : ToolError}

/-! ## Roots -/

/-- At and below a file there is nothing but the file. -/
theorem below_of_file (h : t.get? r = some (.file content)) : t.below r = [(r, .file content)] := by
  have hr : r ≠ [] := by
    rintro rfl
    simp at h
  have hmem : (r, .file content) ∈ t.below r := mem_below_iff.2 ⟨hr, List.prefix_refl r, h⟩
  have heq : ∀ e ∈ t.below r, e = (r, .file content) := by
    rintro ⟨l, item⟩ he
    obtain ⟨-, ⟨k, rfl⟩, hget⟩ := mem_below_iff.1 he
    obtain rfl : k = [] := by
      by_contra hk
      simp [get?_append_of_file h hk] at hget
    rw [List.append_nil, h, Option.some.injEq] at hget
    rw [List.append_nil, hget]
  have hsorted : (t.below r).Pairwise fun v w => compare v.1 w.1 = .lt :=
    (Forest.pairwise_entries t.ordered).filter _
  generalize t.below r = listing at hmem heq hsorted
  match listing with
  | [] => simp at hmem
  | [e] => rw [heq e List.mem_cons_self]
  | e :: e' :: rest =>
    have hlt := (List.pairwise_cons.1 hsorted).1 e' List.mem_cons_self
    simp [heq e (by simp), heq e' (by simp), Std.ReflCmp.compare_self] at hlt

/-- Whether a root is itself a file to be collected. -/
def IsWantedRoot (t : FileTree) (root : Bytes) (extension : String) : Prop :=
  ∃ r content, t.find root = .ok ⟨r, .file content⟩ ∧
    isWanted extension (r, .file content) = true

/-- A root that is a file is all that can be collected, and has no way to it. -/
theorem collect_eq_ok_of_file (hroot : t.find root = .ok ⟨r, .file content⟩)
    (h : collect t root extension = .ok b) :
    if isWanted extension (r, .file content) = true then ∃ body : String, b = [⟨"./", body⟩]
    else b = [] := by
  have hfile := get?_of_walk (find_eq_ok_iff.1 hroot).2
  obtain ⟨place, visits, hplace, hvisits, rfl⟩ := collect_eq_ok_iff.1 h
  obtain rfl : ⟨r, .file content⟩ = place := Except.ok.inj (hroot.symm.trans hplace)
  rw [below_of_file hfile, mapM_eq_ok_iff, List.forall₂_cons_left_iff] at hvisits
  obtain ⟨found, later, hvisit, hlater, rfl⟩ := hvisits
  obtain rfl := List.forall₂_nil_left_iff.1 hlater
  have hfound := visit_eq_ok hvisit
  split_ifs at hfound ⊢
  · obtain ⟨body, -, rfl⟩ := hfound
    exact ⟨body, by simp [entryAt, entryPath, Location.text, List.reduceOption]⟩
  · rw [hfound]
    rfl

theorem not_isSafe_root (body : String) : ¬ IsSafe ⟨"./", body⟩ := by
  rw [isSafe_iff]
  intro h
  refine h.1 ?_
  show stripCurrent (entryPath []) = ""
  rw [stripCurrent_entryPath]
  rfl

/-- **What was collected below a directory passes the check**, every path of it. -/
theorem isSafe_of_collect (hroot : ¬ IsWantedRoot t root extension)
    (h : collect t root extension = .ok b) : ∀ e ∈ b, IsSafe e := by
  obtain ⟨⟨r, item⟩, -, hfind, -⟩ := collect_eq_ok_iff.1 h
  cases item with
  | directory =>
    have hr := get?_of_walk (find_eq_ok_iff.1 hfind).2
    obtain ⟨found, rfl, hfound⟩ := exists_of_collect_eq_ok hfind h
    intro e he
    obtain ⟨w, hw, rfl⟩ := List.mem_map.1 he
    exact isSafe_entryAt (hfound.ne_nil hr hw)
  | file content =>
    have hempty := collect_eq_ok_of_file hfind h
    rw [if_neg fun hwanted => hroot ⟨r, content, hfind, hwanted⟩] at hempty
    simp [hempty]

/-- **A collected bundle is refused for a path exactly when its root is itself a file to be
collected.** Then it holds the one path `./`, and is refused with it under every prefix and whatever
the tree is. -/
theorem collect_refused_iff (h : collect t root extension = .ok b) :
    ((∀ base t' path, ((b.writeTo base).on t').1 ≠ .error (.invalidPath path)) ↔
      ¬ IsWantedRoot t root extension) ∧
    (IsWantedRoot t root extension → (∃ body, b = [⟨"./", body⟩]) ∧
      ∀ base t', (b.writeTo base).on t' = (.error (.invalidPath "./"), t')) := by
  have hrefused : IsWantedRoot t root extension → (∃ body, b = [⟨"./", body⟩]) ∧
      ∀ base t', (b.writeTo base).on t' = (.error (.invalidPath "./"), t') := by
    rintro ⟨r, content, hfind, hwanted⟩
    have hcollected := collect_eq_ok_of_file hfind h
    rw [if_pos hwanted] at hcollected
    obtain ⟨body, rfl⟩ := hcollected
    exact ⟨⟨body, rfl⟩, fun base t' =>
      on_writeTo_of_first base t' (List.forall_mem_nil _) (not_isSafe_root body)⟩
  refine ⟨⟨?_, ?_⟩, hrefused⟩
  · intro hnever hroot
    have hrun := (hrefused hroot).2 "" t
    exact hnever "" t "./" (by rw [hrun])
  · intro hroot base t' path
    exact writeTo_ne_invalidPath (isSafe_of_collect hroot h)

open Desk in
/-- The texts of a directory, which no prefix refuses, and one of them alone, which all refuse. -/
theorem collect_refused_iff_desk :
    collect tree "source" "txt" = .ok [⟨"./a.txt", "one"⟩, ⟨"./b.txt", "two#"⟩] ∧
      (∀ base t' path, ((writeTo [⟨"./a.txt", "one"⟩, ⟨"./b.txt", "two#"⟩] base).on t').1 ≠
        .error (.invalidPath path)) ∧
      collect tree "source/a.txt" "txt" = .ok [⟨"./", "one"⟩] ∧
      ∀ base t', (writeTo [⟨"./", "one"⟩] base).on t' = (.error (.invalidPath "./"), t') := by
  have hdirectory : collect tree "source" "txt" =
      .ok [⟨"./a.txt", "one"⟩, ⟨"./b.txt", "two#"⟩] := rfl
  have hfile : collect tree "source/a.txt" "txt" = .ok [⟨"./", "one"⟩] := rfl
  have hfind : tree.find "source" = .ok ⟨[source], .directory⟩ := rfl
  have hunwanted : ¬ IsWantedRoot tree "source" "txt" := by
    rintro ⟨r, content, hfile, -⟩
    rw [hfind] at hfile
    cases hfile
  have hwanted : IsWantedRoot tree "source/a.txt" "txt" :=
    ⟨[source, early], "one".toByteArray, rfl, rfl⟩
  exact ⟨hdirectory, (collect_refused_iff hdirectory).1.2 hunwanted, hfile,
    ((collect_refused_iff hfile).2 hwanted).2⟩

open Desk in
/-- One text as a root of its own: it is collected, and then refused. -/
theorem collect_refused_of_file_root :
    ¬ ∀ t root extension b, collect t root extension = .ok b →
      ∀ base t' path, ((b.writeTo base).on t').1 ≠ .error (.invalidPath path) := by
  intro h
  have hcollect : collect tree "source/a.txt" "txt" = .ok [⟨"./", "one"⟩] := rfl
  exact h tree "source/a.txt" "txt" _ hcollect "copy" tree "./" rfl

end Bundle

end Atelier
