import Atelier.Proofs.Bundle.Spread

/-!
# What writing a bundle leaves

Entries with different paths can name the same file, and then the last one wins (`lastBody?`). When
the writing of a bundle into an empty directory succeeds, the directory holds, for each file that an
entry names, the last body for it, and the directories leading to these files (`Leaves`). No entry
has to be apart from the others: one that is in the way of another makes the writing fail.
-/

namespace Atelier

open FileTree Atelier.Action FileAction

namespace Bundle

variable {t t' t₁ : FileTree} {p k : Location} {n : Name} {base path : Bytes} {body : String}
  {e : Entry} {b done : Bundle} {names : List Bytes}

/-! ## The last body for a file -/

/-- The body of the last entry for the file with some names. -/
def lastBody? (b : Bundle) (names : List Bytes) : Option String :=
  (b.reverse.find? (·.names = names)).map Entry.body

@[simp] theorem lastBody?_nil : lastBody? [] names = none := rfl

theorem lastBody?_concat (b : Bundle) (e : Entry) (names : List Bytes) :
    lastBody? (b ++ [e]) names = if e.names = names then some e.body else lastBody? b names := by
  rw [lastBody?, List.reverse_concat, List.find?_cons]
  by_cases h : e.names = names
  · simp [h]
  · simp [h, lastBody?]

theorem exists_of_lastBody? (h : lastBody? b names = some body) :
    ∃ e ∈ b, e.names = names ∧ e.body = body := by
  obtain ⟨e, he, hbody⟩ := Option.map_eq_some_iff.1 h
  exact ⟨e, List.mem_reverse.1 (List.mem_of_find?_eq_some he), by simpa using List.find?_some he,
    hbody⟩

/-! ## One entry after the other -/

/-- Whether a directory holds the files that some entries are for, each with the last body for it,
and no directories but those leading to them; and all of it can be reached by path texts that are
not too long. -/
structure Leaves (base : Bytes) (p : Location) (done : Bundle) (t : FileTree) : Prop where
  walk : t.walk (Path.segments base) = .ok ⟨p, .directory⟩
  file_iff : ∀ l content, l ≠ [] → (t.get? (p ++ l) = some (.file content) ↔
    ∃ body, lastBody? done (l.map Name.bytes) = some body ∧ content = body.toByteArray)
  directory : ∀ l, l ≠ [] → t.get? (p ++ l) = some .directory →
    ∃ e ∈ done, l.map Name.bytes <+: e.names
  named : ∀ e ∈ done, ∃ l : Location, l ≠ [] ∧ l.map Name.bytes = e.names
  short : ∀ e ∈ done, Path.isTooLong (place base e) = false

theorem leaves_nil (hbase : t.walk (Path.segments base) = .ok ⟨p, .directory⟩)
    (hempty : ∀ l ≠ [], t.get? (p ++ l) = none) : Leaves base p [] t where
  walk := hbase
  file_iff := fun l content hl => by simp [hempty l hl]
  directory := fun l hl h => by simp [hempty l hl] at h
  named := by simp
  short := by simp

theorem isTooLong_of_writeTarget (h : (writeTarget path body).on t = (.ok (), t')) :
    Path.isTooLong path = false := by
  obtain ⟨t₁, hw⟩ := exists_writeFile_of_writeTarget h
  exact (writeFile_eq_ok_iff.1 hw).2.1

/-- Putting the file of one more entry behind the directories leading to it. -/
theorem Leaves.put (h : Leaves base p done t) (hnames : (k ++ [n]).map Name.bytes = e.names)
    (hshort : Path.isTooLong (place base e) = false)
    (hopens : Opens p e.names.dropLast t t₁) (haccepts : t₁.Accepts (p ++ k) n) :
    Leaves base p (done ++ [e]) (t₁.put (p ++ k) n (.file e.body.toByteArray)) := by
  have hput : ∀ l, (t₁.put (p ++ k) n (.file e.body.toByteArray)).get? (p ++ l) =
      if l = k ++ [n] then some (.file e.body.toByteArray) else t₁.get? (p ++ l) :=
    get?_put_append haccepts
  constructor
  case walk =>
    exact follow_mono (fun m hm => directory_put haccepts (hopens.directory hm)) h.walk
  case file_iff =>
    intro l content hl
    rw [lastBody?_concat]
    by_cases hlk : l = k ++ [n]
    · subst hlk
      rw [hput, if_pos rfl, if_pos hnames.symm]
      simp [eq_comm]
    · have hne : e.names ≠ l.map Name.bytes := by
        rw [← hnames]
        exact fun heq => hlk (Location.map_bytes_inj.1 heq).symm
      rw [hput, if_neg hlk, hopens.file_iff, h.file_iff l content hl, if_neg hne]
  case directory =>
    intro l hl hdir
    by_cases hlk : l = k ++ [n]
    · subst hlk
      simp [hput] at hdir
    · rw [hput, if_neg hlk] at hdir
      rcases hopens (p ++ l) with hsame | ⟨-, -, j, hj, hway⟩
      · rw [hsame] at hdir
        obtain ⟨e', he', hpre⟩ := h.directory l hl hdir
        exact ⟨e', List.mem_append_left _ he', hpre⟩
      · -- A directory that was made is on the way to the new file.
        rw [List.append_cancel_left_eq] at hj
        subst hj
        exact ⟨e, by simp, hway.trans (List.dropLast_prefix _)⟩
  case named =>
    rw [List.forall_mem_append, List.forall_mem_singleton]
    exact ⟨h.named, k ++ [n], by simp, hnames⟩
  case short =>
    rw [List.forall_mem_append, List.forall_mem_singleton]
    exact ⟨h.short, hshort⟩

/-- **One more entry is written over what is there.** -/
theorem Leaves.writeTarget (h : Leaves base p done t) (hsafe : IsSafe e)
    (hrun : (writeTarget (place base e) e.body).on t = (.ok (), t')) :
    Leaves base p (done ++ [e]) t' := by
  obtain ⟨front, hsegments, hfront⟩ := exists_front h.walk e
  obtain ⟨t₁, hopens, ⟨err, hfailed⟩ | ⟨k, n, hnames, -, haccepts, hput⟩⟩ :=
    writeTarget_cases e.body hfront hsegments (Path.segments_ne_nil _) (isSafe_iff.1 hsafe).2.2
  · simp [hfailed] at hrun
  · rw [hput] at hrun
    obtain rfl := (Prod.mk.inj hrun).2
    exact h.put hnames (isTooLong_of_writeTarget hput) hopens haccepts

/-- **All entries are written over what is there**, if that succeeds. -/
theorem Leaves.writeEntries (h : Leaves base p done t) (hsafe : ∀ e ∈ b, IsSafe e)
    (hrun : (writeEntries base b).on t = (.ok (), t')) : Leaves base p (done ++ b) t' := by
  induction b generalizing done t with
  | nil =>
    obtain rfl : t = t' := congrArg Prod.snd hrun
    simpa using h
  | cons e rest ih =>
    rw [List.forall_mem_cons] at hsafe
    rw [on_writeEntries_cons] at hrun
    rcases hfirst : (Bundle.writeTarget (place base e) e.body).on t with ⟨err | ⟨⟩, t₁⟩
    · simp [hfirst] at hrun
    · rw [hfirst] at hrun
      have hrest := ih (h.writeTarget hsafe.1 hfirst) hsafe.2 hrun
      rwa [List.append_assoc, List.singleton_append] at hrest

end Bundle

end Atelier
