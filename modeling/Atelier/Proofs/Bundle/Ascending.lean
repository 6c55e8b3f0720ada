import Atelier.Proofs.Bundle.Portable
import Atelier.Proofs.Order.Increasing

/-!
# The order of collected paths

Files are collected in the order of their names. Their paths in the bundle, which are the names read
as text, are in the same order as long as the names are texts. Names that are none can change places
when they are read, and several of them can become one.
-/

namespace Atelier

open Text

namespace Location

/-- Locations are in the order of the bytes of their names. -/
theorem compare_map_bytes (k l : Location) :
    compare (k.map Name.bytes) (l.map Name.bytes) = compare k l := by
  show List.compareLex compare (k.map Name.bytes) (l.map Name.bytes) = List.compareLex compare k l
  induction k generalizing l with
  | nil => cases l <;> rfl
  | cons m k ih =>
    cases l with
    | nil => rfl
    | cons n l =>
      rw [List.map_cons, List.map_cons, List.compareLex_cons_cons, List.compareLex_cons_cons, ih]
      rfl

end Location

namespace Bundle

variable {t : FileTree} {r l : Location} {extension : String} {found : List (Location × String)}
  {b : Bundle}

/-- Whether the paths of a bundle are strictly increasing, compared segment by segment by bytes. -/
abbrev Ascending (b : Bundle) : Prop :=
  Increasing compare (fun e : Entry => Path.segments e.path) b

theorem segments_entryPath (hl : l ≠ []) :
    Path.segments (entryPath l) = Path.current :: l.map fun n => Text.bytes n.text := by
  have hbytes : Text.bytes (entryPath l) = Path.current ++ Path.slash :: Text.bytes l.text := by
    rw [entryPath, bytes_append]
    rfl
  have hcurrent : Path.segments Path.current = [Path.current] := by decide
  rw [hbytes, Path.segments_append_slash, hcurrent, Location.segments_text hl,
    List.singleton_append]

/-- Collected entries are ascending when the texts of their names are. -/
theorem ascending_map_entryAt_iff (hne : ∀ w ∈ found, w.1 ≠ []) :
    Ascending (found.map entryAt) ↔
      Increasing compare (fun w => w.1.map fun n => Text.bytes n.text) found := by
  have hself : compare Path.current Path.current = .eq := Std.ReflCmp.compare_self
  rw [Ascending, Increasing, List.pairwise_map]
  refine List.Pairwise.iff_of_mem fun {v w} hv hw => ?_
  dsimp only [entryAt]
  rw [segments_entryPath (hne v hv), segments_entryPath (hne w hw)]
  show List.compareLex compare _ _ = .lt ↔ _
  rw [List.compareLex_cons_cons, hself]
  rfl

/-- **Files whose names are texts have their paths in order.** -/
theorem ascending_of_isText (hsorted : Increasing compare Prod.fst found)
    (hne : ∀ w ∈ found, w.1 ≠ []) (htext : ∀ w ∈ found, IsText w.1.path) :
    Ascending (found.map entryAt) := by
  rw [ascending_map_entryAt_iff hne]
  refine hsorted.imp_of_mem fun {v w} hv hw hlt => ?_
  dsimp only
  rw [Location.map_bytes_text (Location.isText_path_iff.1 (htext v hv)),
    Location.map_bytes_text (Location.isText_path_iff.1 (htext w hw)), Location.compare_map_bytes]
  exact hlt

end Bundle

end Atelier
