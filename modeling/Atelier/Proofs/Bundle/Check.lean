import Atelier.Proofs.Bundle.Target

/-!
# The check of paths

A path is refused when it escapes: less one leading `./` it is empty, starts with a slash or has a
segment that leads up. The check looks at the parts of a path, and the two say the same of every
path. A bundle is refused with the first path that escapes. That comes before anything is written,
so no trouble with the tree comes first and the tree stays as it is.
-/

namespace Atelier

open FileTree Atelier.Action FileAction

namespace Bundle

variable {t t' : FileTree} {base : Bytes} {path : String} {b : Bundle} {e : Entry} {err : ToolError}

/-! ## Errors of writing -/

/-- Entries that have passed the check fail for reasons of the file system only. -/
theorem exists_of_writeEntries_eq_error
    (h : (writeEntries base b).on t = (.error err, t')) :
    ∃ done e rest t₁ cause, b = done ++ e :: rest ∧
      (writeEntries base done).on t = (.ok (), t₁) ∧
      (writeTarget (place base e) e.body).on t₁ = (.error cause, t') ∧ err = .io cause := by
  induction b generalizing t with
  | nil => cases h
  | cons e rest ih =>
    rw [on_writeEntries_cons] at h
    rcases hrun : (writeTarget (place base e) e.body).on t with ⟨cause | _, t₁⟩
    · rw [hrun] at h
      obtain ⟨rfl, rfl⟩ : ToolError.io cause = err ∧ t₁ = t' := by simpa using h
      exact ⟨[], e, rest, t, cause, rfl, rfl, hrun, rfl⟩
    · rw [hrun] at h
      obtain ⟨done, e', rest', t₂, cause, rfl, hdone, herror, rfl⟩ := ih h
      refine ⟨e :: done, e', rest', t₂, cause, rfl, ?_, herror, rfl⟩
      rw [on_writeEntries_cons, hrun]
      exact hdone

theorem writeTo_ne_invalidPath (h : ∀ e ∈ b, IsSafe e) :
    ((b.writeTo base).on t).1 ≠ .error (.invalidPath path) := by
  intro hpath
  obtain ⟨t', hrun⟩ : ∃ t', (b.writeTo base).on t = (.error (.invalidPath path), t') :=
    ⟨_, Prod.ext hpath rfl⟩
  obtain ⟨_, _, _, _, cause, -, -, -, hio⟩ :=
    exists_of_writeEntries_eq_error ((on_writeTo_eq_error_iff h).1 hrun)
  cases hio

/-! ## Paths that escape -/

/-- Whether a path, less one leading `./`, is empty, starts with a slash or has a segment that leads
up. -/
def Escapes (path : String) : Prop :=
  stripCurrent path = "" ∨ (stripCurrent path).toList.head? = some '/' ∨
    ".." ∈ Text.pieces "/" (stripCurrent path)

instance : DecidablePred Escapes := fun _ => inferInstanceAs (Decidable (_ ∨ _ ∨ _))

theorem isSafe_iff_not_escapes : IsSafe e ↔ ¬ Escapes e.path := by
  rw [isSafe_iff, Escapes, not_or, not_or, Path.up_mem_segments_bytes, Ne, Ne,
    Path.head?_bytes_eq_slash_iff]

theorem find?_escapes_eq_none (h : ∀ e ∈ b, IsSafe e) :
    (b.map Entry.path).find? (Escapes ·) = none := by
  simpa using fun e he => isSafe_iff_not_escapes.1 (h e he)

theorem find?_escapes_of_first {done rest : Bundle} (hdone : ∀ e ∈ done, IsSafe e)
    (he : Escapes e.path) :
    ((done ++ e :: rest).map Entry.path).find? (Escapes ·) = some e.path := by
  rw [List.map_append, List.find?_append, find?_escapes_eq_none hdone, List.map_cons,
    List.find?_cons_of_pos (by simpa using he)]
  rfl

/-- **A bundle is refused exactly when some path of it escapes.** The error tells the first such
path as it stands in the bundle, whatever else would have gone wrong, and nothing has changed. -/
theorem refused_iff_escapes (b : Bundle) (base : Bytes) (t : FileTree) :
    ((∃ path, ((b.writeTo base).on t).1 = .error (.invalidPath path)) ↔
      ∃ e ∈ b, Escapes e.path) ∧
    ∀ path t', (b.writeTo base).on t = (.error (.invalidPath path), t') ↔
      t' = t ∧ (b.map Entry.path).find? (Escapes ·) = some path := by
  by_cases h : ∀ e ∈ b, IsSafe e
  · -- Whatever goes wrong then is an error of the file system.
    refine ⟨iff_of_false ?_ ?_, fun path t' => iff_of_false ?_ ?_⟩
    · rintro ⟨path, hpath⟩
      exact writeTo_ne_invalidPath h hpath
    · rintro ⟨e, he, hescapes⟩
      exact isSafe_iff_not_escapes.1 (h e he) hescapes
    · intro hrun
      exact writeTo_ne_invalidPath h (congrArg Prod.fst hrun)
    · rw [find?_escapes_eq_none h]
      simp
  · obtain ⟨done, e, rest, rfl, hdone, he⟩ := exists_first_of_not_isSafe h
    have hescapes : Escapes e.path := not_not.1 (mt isSafe_iff_not_escapes.2 he)
    have hrun : (writeTo (done ++ e :: rest) base).on t = (.error (.invalidPath e.path), t) :=
      on_writeTo_of_first base t hdone he
    rw [hrun, find?_escapes_of_first hdone hescapes]
    constructor
    · exact iff_of_true ⟨e.path, rfl⟩ ⟨e, by simp, hescapes⟩
    · intro path t'
      simp only [Prod.mk.injEq, Except.error.injEq, ToolError.invalidPath.injEq, Option.some.injEq]
      exact ⟨fun h => ⟨h.2.symm, h.1⟩, fun h => ⟨h.2, h.1.symm⟩⟩

example : ["a/..b", ".", "././/x"].all (¬ Escapes ·) ∧
    ["", "./", "/x", ".//x", "..", "a/../b", "a/.."].all (Escapes ·) := by decide

end Bundle

end Atelier
