import Atelier.Proofs.Bundle.Outcome

/-!
# When a bundle can be written

Whether a bundle can be written is told before anything is written (`Writable`). Each path text has
to be that of a file, which is a matter of the text alone (`Fits`). In the tree no file may stand
above the place of an entry and no directory in it. And no entry may be above another, since the
one would need a file where the other needs a directory.

None of this depends on the order of the entries or on their bodies. So the conflicts that are met
at different moments in different orders are the same ones.
-/

namespace Atelier

open FileTree Atelier.Action FileAction

namespace Bundle

variable {t t' t₀ : FileTree} {base : Bytes} {b done : Bundle} {e e' : Entry} {l : Location}

/-! ## Path texts of files -/

/-- Whether the path text of an entry, put behind a prefix, is that of a file at a location. -/
structure Fits (base : Bytes) (e : Entry) (l : Location) : Prop where
  safe : IsSafe e
  way : l.map Name.bytes = e.way base
  last : (Path.segments (place base e)).getLast? = l.getLast?.map Name.bytes
  no_nul : Path.hasNul (place base e) = false
  short : Path.isTooLong (place base e) = false

/-- The path text ends in the name of the file, and before that it leads to the directory. -/
theorem Fits.exists_segments (h : Fits base e l) :
    ∃ above k n, l = k ++ [n] ∧ Path.segments (place base e) = above ++ [n.bytes] ∧
      above.filter (!Path.isIdle ·) = k.map Name.bytes := by
  obtain ⟨above, last, hsegments⟩ :=
    (List.eq_nil_or_concat' (Path.segments (place base e))).resolve_left (Path.segments_ne_nil _)
  have hlast := h.last
  rw [hsegments, List.getLast?_concat] at hlast
  obtain ⟨n, hn, rfl⟩ := Option.map_eq_some_iff.1 hlast.symm
  obtain ⟨k, rfl⟩ := List.getLast?_eq_some_iff.1 hn
  refine ⟨above, k, n, rfl, hsegments, ?_⟩
  have hway := h.way
  rw [← components_place, Path.components_eq, hsegments, List.filter_append,
    List.map_append] at hway
  simpa [isIdle_bytes] using hway.symm

theorem Fits.dropLast_way {k : Location} {n : Name} (h : Fits base e (k ++ [n])) :
    (e.way base).dropLast = k.map Name.bytes := by
  rw [← h.way, List.map_append, List.map_singleton, List.dropLast_concat]

/-- What was written had the path text of a file. -/
theorem fits_of_writeTarget (hbase : Path.up ∉ Path.components base) (he : IsSafe e)
    (hrun : (writeTarget (place base e) e.body).on t = (.ok (), t')) : ∃ l, Fits base e l := by
  obtain ⟨t₁, -, ⟨err, hfailed⟩ | ⟨k, n, hway, -⟩⟩ := writeTarget_place_cases hbase he e.body t
  · simp [hfailed] at hrun
  obtain ⟨t₁, hw⟩ := exists_writeFile_of_writeTarget hrun
  obtain ⟨hnul, hlong, above, -, m, hsegments, -⟩ := writeFile_eq_ok_iff.1 hw
  refine ⟨k ++ [n], he, hway, ?_, hnul, hlong⟩
  -- The components of the path text end in the last segment as the location ends in its name.
  have hends := congrArg List.getLast? hway
  rw [← components_place, Path.components_eq, hsegments, List.filter_append] at hends
  simpa [hsegments, isIdle_bytes, eq_comm] using hends

/-- An entry is written if nothing in the tree is in its way. -/
theorem exists_writeTarget_of_fits (h : Fits base e l)
    (hdirectory : t.get? l ≠ some .directory)
    (hfile : ∀ (k : Location) content, k.map Name.bytes <+: (e.way base).dropLast →
      t.get? k ≠ some (.file content)) :
    ∃ t', (writeTarget (place base e) e.body).on t = (.ok (), t') := by
  obtain ⟨above, k, n, rfl, hsegments, habove⟩ := h.exists_segments
  have hroot : t.walk [] = .ok ⟨[], .directory⟩ := rfl
  have hfree : ∀ j content, j <+: k → t.get? ([] ++ j) ≠ some (.file content) := by
    intro j content hj
    apply hfile
    rw [h.dropLast_way]
    exact hj.map Name.bytes
  have hok := fst_writeTarget e.body hroot hsegments habove h.no_nul h.short hfree hdirectory
  exact ⟨_, Prod.ext hok rfl⟩

/-! ## Bundles -/

/-- Whether a bundle can be written below a prefix of a tree. -/
structure Writable (base : Bytes) (t : FileTree) (b : Bundle) : Prop where
  fits : ∀ e ∈ b, ∃ l, Fits base e l
  no_directory : ∀ e ∈ b, ∀ l : Location, l.map Name.bytes = e.way base →
    t.get? l ≠ some .directory
  no_file : ∀ e ∈ b, ∀ (l : Location) content, l.map Name.bytes <+: (e.way base).dropLast →
    t.get? l ≠ some (.file content)
  apart : ∀ e ∈ b, ∀ e' ∈ b, ¬ e.way base <+: (e'.way base).dropLast

/-- The rest of a bundle is written over what its front left. -/
theorem Writable.exists_writeEntries (h : Writable base t₀ (done ++ b))
    (hbase : Path.up ∉ Path.components base) (hdone : WrittenOver base t₀ done t) :
    ∃ t', (writeEntries base b).on t = (.ok (), t') := by
  induction b generalizing done t with
  | nil => exact ⟨t, rfl⟩
  | cons e rest ih =>
    have he : e ∈ done ++ e :: rest := by simp
    obtain ⟨l, hfits⟩ := h.fits e he
    have hdirectory : t.get? l ≠ some .directory := by
      intro hdir
      rcases (hdone.directory_iff l).1 hdir with hold | ⟨e', he', hway⟩
      · exact h.no_directory e he l hfits.way hold
      · exact h.apart e he e' (List.mem_append_left _ he') (hfits.way ▸ hway)
    have hfile : ∀ (k : Location) content, k.map Name.bytes <+: (e.way base).dropLast →
        t.get? k ≠ some (.file content) := by
      intro k content hway hfile
      by_cases hnew : ∃ e' ∈ done, k.map Name.bytes = e'.way base
      · obtain ⟨e', he', hk⟩ := hnew
        exact h.apart e' (List.mem_append_left _ he') e he (hk ▸ hway)
      · have hold := (hdone.others k content (by simpa using hnew)).1 hfile
        exact h.no_file e he k content hway hold
    obtain ⟨t₁, hfirst⟩ := exists_writeTarget_of_fits hfits hdirectory hfile
    have hdone₁ := hdone.trans (writtenOver_of_writeTarget hbase hfits.safe hfirst)
    rw [List.append_cons] at h
    obtain ⟨t', hrest⟩ := ih h hdone₁
    refine ⟨t', ?_⟩
    rw [on_writeEntries_cons, hfirst]
    exact hrest

/-- Every entry of a bundle that was written was written at some moment. -/
theorem exists_writeTarget_of_mem (hrun : (writeEntries base b).on t = (.ok (), t'))
    (he : e ∈ b) : ∃ t₁ t₂, (writeTarget (place base e) e.body).on t₁ = (.ok (), t₂) := by
  induction b generalizing t with
  | nil => cases he
  | cons first rest ih =>
    rw [on_writeEntries_cons] at hrun
    rcases hfirst : (writeTarget (place base first) first.body).on t with ⟨err | ⟨⟩, t₁⟩
    · simp [hfirst] at hrun
    · rw [hfirst] at hrun
      rcases List.mem_cons.1 he with rfl | he
      · exact ⟨t, t₁, hfirst⟩
      · exact ih hrun he

theorem exists_lastBody? (he : e ∈ b) : ∃ body, lastBody? b e.names = some body := by
  rw [← Option.ne_none_iff_exists', Ne, lastBody?_eq_none_iff]
  exact fun h => h e he rfl

/-- What was written could be written. -/
theorem writable_of_writeEntries (hbase : Path.up ∉ Path.components base)
    (hsafe : ∀ e ∈ b, IsSafe e) (hrun : (writeEntries base b).on t = (.ok (), t')) :
    Writable base t b := by
  have hover := writtenOver_of_writeEntries hbase hsafe hrun
  have hfits : ∀ e ∈ b, ∃ l, Fits base e l := by
    intro e he
    obtain ⟨t₁, t₂, hwrite⟩ := exists_writeTarget_of_mem hrun he
    exact fits_of_writeTarget hbase (hsafe e he) hwrite
  have hfile : ∀ e ∈ b, ∀ l : Location, l.map Name.bytes = e.way base →
      t'.get? l ≠ some .directory := by
    intro e he l hl hdir
    obtain ⟨body, hbody⟩ := exists_lastBody? he
    have hlast := hover.last l e.names body hl hbody
    simp [hdir] at hlast
  refine ⟨hfits, ?_, ?_, ?_⟩
  · intro e he l hl hdir
    exact hfile e he l hl ((hover.directory_iff l).2 (.inl hdir))
  · intro e he l content hway hold
    -- A file stays a file, so no directory can have been made in its place.
    have hconfined := confined_writeEntries hbase hsafe t
    rw [hrun] at hconfined
    obtain ⟨content', hnew⟩ := hconfined.keeps_file l content hold
    have hdir := (hover.directory_iff l).2 (.inr ⟨e, he, hway⟩)
    simp [hnew] at hdir
  · intro e he e' he' hway
    obtain ⟨l, hl⟩ := hfits e he
    exact hfile e he l hl.way ((hover.directory_iff l).2 (.inr ⟨e', he', hl.way ▸ hway⟩))

/-- **A bundle is written exactly when it can be**, as told before anything is written. -/
theorem exists_writeTo_iff_writable (hbase : Path.up ∉ Path.components base) :
    (∃ written t', (b.writeTo base).on t = (.ok written, t')) ↔ Writable base t b := by
  constructor
  · rintro ⟨written, t', hrun⟩
    obtain ⟨hsafe, -, hentries⟩ := on_writeTo_eq_ok_iff.1 hrun
    exact writable_of_writeEntries hbase hsafe hentries
  · intro h
    have hnil : Writable base t ([] ++ b) := h
    obtain ⟨t', hrun⟩ := hnil.exists_writeEntries hbase (.refl base t)
    have hsafe : ∀ e ∈ b, IsSafe e := by
      intro e he
      obtain ⟨l, hl⟩ := h.fits e he
      exact hl.safe
    exact ⟨_, t', on_writeTo_eq_ok_iff.2 ⟨hsafe, rfl, hrun⟩⟩

end Bundle

end Atelier
