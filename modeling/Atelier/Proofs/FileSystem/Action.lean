import Atelier.FileSystem.Calls
import Atelier.Proofs.Action
import Mathlib.Tactic.SplitIfs

/-!
# Running requests

What the requests to a file tree do when they are run: writing, and making directories with those
above them.
-/

namespace Atelier

open Atelier.Action

variable {t t' : FileTree}

namespace FileAction

theorem on_write (path : Bytes) (content : ByteArray) (t : FileTree) :
    (write path content).on t =
      match t.writeFile path content with
      | .ok t' => (.ok (), t')
      | .error e => (.error e, t) := by
  rw [write, on_bind, on_get]
  dsimp only
  cases t.writeFile path content <;> rfl

theorem on_makeParents (path : Bytes) (t : FileTree) :
    (makeParents path).on t =
      if ((Path.components path).dropLast.any Path.hasNul) = true then (.error .nulInPath, t)
      else if Path.isTooLong (Path.parent path) = true then (.error (.os .nameTooLong), t)
      else
        let r := (FileTree.makeDirectories (Path.components path).dropLast.reverse).on t
        ((r.1.mapError .os).map fun _ => (), r.2) := by
  rw [makeParents]
  split_ifs with hnul hlong
  · rfl
  · rfl
  · rw [on_discard, on_adapt]

end FileAction

namespace FileTree

open Atelier.Action FileAction

variable {segment : Bytes} {above segments : List Bytes} {l parent : Location} {e : OsError}

theorem on_settle_error :
    (settle segments (.error e)).on t =
      match t.findDirectory segments with
      | .ok l => (.ok l, t)
      | .error _ => (.error e, t) := by
  rw [settle, on_bind, on_get]
  dsimp only
  cases t.findDirectory segments <;> rfl

theorem on_makeDirectories_cons
    (h : t.findDirectory above.reverse >>= (t.makeDirectory · segment) ≠ .error .notFound) :
    (makeDirectories (segment :: above)).on t =
      (settle (segment :: above).reverse
        (t.findDirectory above.reverse >>= (t.makeDirectory · segment))).on t := by
  rw [makeDirectories, on_bind, on_get]
  dsimp only
  split
  · contradiction
  · rfl

/-- What is missing above is made only where it is missing. -/
theorem on_makeDirectories_of_missing
    (h : t.findDirectory above.reverse >>= (t.makeDirectory · segment) = .error .notFound) :
    (makeDirectories (segment :: above)).on t =
      match (makeDirectories above).on t with
      | (.ok parent, t₁) =>
        (settle (segment :: above).reverse (t₁.makeDirectory parent segment)).on t₁
      | (.error e, t₁) => (.error e, t₁) := by
  rw [makeDirectories, on_bind, on_get]
  dsimp only
  rw [h]
  dsimp only
  rw [on_bind]
  rcases (makeDirectories above).on t with ⟨e | parent, t₁⟩
  · rfl
  · rfl

end FileTree

end Atelier
