import Atelier.FileSystem.Path
import Atelier.Text.Lossy

/-!
# Names and locations

A name is what a directory lists: bytes, which need not be text, at least one and at most 255,
without a slash or NUL, and neither `.` nor `..`. A location is the names from the root down to a
file or directory.

Names are ordered by their bytes and locations name by name, so in this order a directory comes
right before everything below it.
-/

namespace Atelier

/-- A name that a directory can list. -/
structure Name where
  bytes : Bytes
  ne_nil : bytes ≠ []
  ne_current : bytes ≠ Path.current
  ne_up : bytes ≠ Path.up
  no_slash : Path.slash ∉ bytes
  no_nul : 0 ∉ bytes
  short : bytes.length ≤ 255

namespace Name

@[ext] theorem ext {a b : Name} (h : a.bytes = b.bytes) : a = b := by
  cases a; cases b; simp_all

instance : DecidableEq Name := fun a b =>
  decidable_of_iff (a.bytes = b.bytes) ⟨Name.ext, fun h => h ▸ rfl⟩

instance : Ord Name := ⟨fun a b => compare a.bytes b.bytes⟩

instance : Std.TransOrd Name :=
  inferInstanceAs (Std.TransCmp (compareOn Name.bytes))

instance : Std.LawfulEqOrd Name where
  compare_self := by
    intro a
    show compare a.bytes a.bytes = .eq
    exact Std.ReflCmp.compare_self
  eq_of_compare := by
    intro a b h
    have hbytes : compare a.bytes b.bytes = .eq := h
    exact Name.ext (Std.LawfulEqCmp.eq_of_compare hbytes)

/-- The name with some bytes, if they are one. -/
def ofBytes? (bytes : Bytes) : Option Name :=
  if h : bytes ≠ [] ∧ bytes ≠ Path.current ∧ bytes ≠ Path.up ∧ Path.slash ∉ bytes ∧ 0 ∉ bytes ∧
      bytes.length ≤ 255 then
    some ⟨bytes, h.1, h.2.1, h.2.2.1, h.2.2.2.1, h.2.2.2.2.1, h.2.2.2.2.2⟩
  else none

@[simp] theorem ofBytes?_bytes (n : Name) : ofBytes? n.bytes = some n := by
  unfold ofBytes?
  rw [dif_pos ⟨n.ne_nil, n.ne_current, n.ne_up, n.no_slash, n.no_nul, n.short⟩]

/-- A name is made only of the bytes it was asked for. -/
theorem bytes_of_ofBytes? {bytes : Bytes} {n : Name} (h : ofBytes? bytes = some n) :
    n.bytes = bytes := by
  unfold ofBytes? at h
  split at h
  · simp only [Option.some.injEq] at h
    exact h ▸ rfl
  · simp at h

/-- A name as text, with replacement characters where its bytes are none. -/
def text (n : Name) : String :=
  Text.lossy n.bytes

/-- What stands behind the last dot of a name. A dot in front of everything else belongs to the name
and starts no extension. -/
def extension? (n : Name) : Option Bytes :=
  match n.bytes.reverse.dropWhile (· ≠ 0x2e) with
  | [] | [_] => none
  | _ :: _ => some (n.bytes.reverse.takeWhile (· ≠ 0x2e)).reverse

end Name

/-- The names from the root to a file or directory; none for the root itself. -/
abbrev Location := List Name

namespace Location

/-- The path text of a location. -/
def path (l : Location) : Bytes :=
  Path.ofSegments (l.map Name.bytes)

/-- A path text for a reader, with replacement characters where names are no text. -/
def text (l : Location) : String :=
  "/".intercalate (l.map Name.text)

end Location

end Atelier
