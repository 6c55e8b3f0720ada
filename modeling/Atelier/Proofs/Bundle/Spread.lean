import Atelier.Proofs.Bundle.Portable

/-!
# What writing entries leaves

Files that are apart can be written one after another into an empty directory, and then the
directory holds these files and the directories leading to them (`Spread`). Whatever entries are
written, each file that was not there before is one of theirs.
-/

namespace Atelier

open FileTree Atelier.Action FileAction

namespace Bundle

variable {t t' : FileTree} {p l k : Location} {base : Bytes} {e : Entry} {b : Bundle}
  {v w : Location × String} {done found : List (Location × String)}

/-- The segments of an entry's target lead through the directory of the base. -/
theorem exists_front (hbase : t.walk (Path.segments base) = .ok ⟨p, .directory⟩) (e : Entry) :
    ∃ front, Path.segments (place base e) = front ++ Path.segments (stripCurrent e.path) ∧
      t.walk front = .ok ⟨p, .directory⟩ := by
  obtain ⟨front, hjoin, hfront | hfront⟩ := Path.segments_join base (stripCurrent e.path)
  · exact ⟨front, hjoin, hfront ▸ hbase⟩
  · rw [hfront] at hbase
    obtain ⟨m, hm, hlast⟩ := walk_front hbase
    obtain ⟨next, hstep, hnext⟩ := follow_cons_eq_ok_iff.1 hlast
    rw [step_idle (by decide), Except.ok.injEq] at hstep
    rw [follow_nil, Except.ok.injEq] at hnext
    exact ⟨front, hjoin, by rw [hm, hstep, hnext]⟩

/-! ## Files that are apart -/

/-- Whether a directory holds some files, the directories leading to them, and nothing else. -/
structure Spread (p : Location) (done : List (Location × String)) (t : FileTree) : Prop where
  file_iff : ∀ l content, l ≠ [] → (t.get? (p ++ l) = some (.file content) ↔
    ∃ w ∈ done, w.1 = l ∧ content = w.2.toByteArray)
  directory_iff : ∀ l, l ≠ [] → (t.get? (p ++ l) = some .directory ↔
    ∃ w ∈ done, ∃ k, k ≠ [] ∧ w.1 = l ++ k)

theorem spread_nil (hempty : ∀ l ≠ [], t.get? (p ++ l) = none) : Spread p [] t :=
  ⟨fun l content hl => by simp [hempty l hl], fun l hl => by simp [hempty l hl]⟩

/-- Putting one more file behind the directories leading to it. -/
theorem Spread.put {t₁ : FileTree} {n : Name} (h : Spread p done t)
    (hopens : Opens p (k.map Name.bytes) t t₁) (haccepts : t₁.Accepts (p ++ k) n)
    (hw : w.1 = k ++ [n]) (hapart : ∀ v ∈ done, Apart v w) :
    Spread p (done ++ [w]) (t₁.put (p ++ k) n (.file w.2.toByteArray)) := by
  have hself : (t₁.put (p ++ k) n (.file w.2.toByteArray)).get? (p ++ w.1) =
      some (.file w.2.toByteArray) := by
    rw [get?_put_append haccepts, if_pos hw]
  have hother : ∀ l, l ≠ w.1 →
      (t₁.put (p ++ k) n (.file w.2.toByteArray)).get? (p ++ l) = t₁.get? (p ++ l) := by
    intro l hl
    rw [get?_put_append haccepts, if_neg (hw ▸ hl)]
  refine ⟨fun l content hl => ?_, fun l hl => ?_⟩
  · by_cases hlw : l = w.1
    · subst hlw
      rw [hself]
      constructor
      · intro heq
        exact ⟨w, by simp, rfl, by simpa [eq_comm] using heq⟩
      · rintro ⟨v, hv, hvl, rfl⟩
        rcases List.mem_append.1 hv with hv | hv
        · exact absurd (hvl ▸ List.prefix_refl _) (hapart v hv).1
        · rw [List.mem_singleton.1 hv]
    · rw [hother l hlw, hopens.file_iff, h.file_iff l content hl]
      simp [Ne.symm hlw]
  · by_cases hlw : l = w.1
    · subst hlw
      rw [hself]
      simp only [Option.some.injEq, reduceCtorEq, false_iff]
      rintro ⟨v, hv, k', hk', hvl⟩
      rcases List.mem_append.1 hv with hv | hv
      · exact (hapart v hv).2 (hvl ▸ List.prefix_append _ _)
      · rw [List.mem_singleton.1 hv] at hvl
        exact hk' (by simpa using hvl)
    · constructor
      · rw [hother l hlw]
        intro hdir
        rcases hopens (p ++ l) with hsame | ⟨-, -, j, hj, hway⟩
        · rw [hsame] at hdir
          obtain ⟨v, hv, hvl⟩ := (h.directory_iff l hl).1 hdir
          exact ⟨v, List.mem_append_left _ hv, hvl⟩
        · -- A directory that was made is on the way to the new file.
          rw [List.append_cancel_left_eq] at hj
          obtain ⟨rest, rfl⟩ := (List.prefix_map_iff_of_injective Name.bytes_injective).1 hway
          exact ⟨w, by simp, rest ++ [n], by simp, by rw [hw, hj]; simp⟩
      · rintro ⟨v, hv, k', hk', hvl⟩
        rcases List.mem_append.1 hv with hv | hv
        · rw [hother l hlw]
          exact hopens.directory ((h.directory_iff l hl).2 ⟨v, hv, k', hk', hvl⟩)
        · -- The directories above the new file are there because the file is.
          rw [List.mem_singleton.1 hv] at hvl
          rw [hvl, ← List.append_assoc] at hself
          exact get?_of_append hk' hself

/-- **One more file is written** when it is apart from those that were written. -/
theorem exists_writeTarget (hbase : t.walk (Path.segments base) = .ok ⟨p, .directory⟩)
    (hnul : Path.hasNul base = false) (htext : Text.IsText w.1.path)
    (hshort : Path.isTooLong (Path.join base w.1.path) = false) (h : Spread p done t)
    (hw : w.1 ≠ []) (hapart : ∀ v ∈ done, Apart v w) :
    ∃ t', (writeTarget (place base (entryAt w)) w.2).on t = (.ok (), t') ∧
      Spread p (done ++ [w]) t' ∧ t'.walk (Path.segments base) = .ok ⟨p, .directory⟩ := by
  obtain ⟨k, n, hkn⟩ := (List.eq_nil_or_concat' w.1).resolve_left hw
  have hown : Text.bytes (stripCurrent (entryAt w).path) = w.1.path := by
    rw [entryAt, stripCurrent_entryPath, Location.bytes_text htext]
  have hplace : place base (entryAt w) = Path.join base w.1.path := by rw [place, hown]
  obtain ⟨front, hsegments, hfront⟩ := exists_front hbase (entryAt w)
  rw [hown, Location.segments_path hw] at hsegments
  have hlong : Path.isTooLong (place base (entryAt w)) = false := hplace ▸ hshort
  have hnul' : Path.hasNul (place base (entryAt w)) = false :=
    hplace ▸ Path.hasNul_join hnul (Location.hasNul_path w.1)
  -- A file on the way would be above the new one, a directory in its place above another.
  have hfree : ∀ j content, j <+: k → t.get? (p ++ j) ≠ some (.file content) := by
    intro j content hj hfile
    by_cases hjnil : j = []
    · simp [hjnil, get?_of_walk hbase] at hfile
    · obtain ⟨v, hv, rfl, -⟩ := (h.file_iff j content hjnil).1 hfile
      exact (hapart v hv).1 (hj.trans (hkn ▸ List.prefix_append _ _))
  have hn : t.get? (p ++ k ++ [n]) ≠ some .directory := by
    rw [List.append_assoc, ← hkn]
    intro hdir
    obtain ⟨v, hv, k', -, hvw⟩ := (h.directory_iff w.1 hw).1 hdir
    exact (hapart v hv).2 (hvw ▸ List.prefix_append _ _)
  have hpath : Path.segments (place base (entryAt w)) =
      front ++ (k.map Name.bytes ++ [n.bytes]) := by
    rw [hsegments, hkn, List.map_append, List.map_singleton]
  have hok := fst_writeTarget w.2 hfront hpath (filter_names k) hnul' hlong hfree hn
  obtain ⟨t₁, hopens, ⟨err, hrun⟩ | ⟨k', n', hk', -, haccepts, hrun⟩⟩ :=
    writeTarget_cases w.2 hfront hsegments (by simpa using hw) (up_not_mem_names w.1)
  · simp [hrun] at hok
  · rw [filter_names, Location.map_bytes_inj, hkn, List.append_singleton_inj] at hk'
    obtain ⟨rfl, rfl⟩ := hk'
    rw [filter_names, hkn, List.map_append, List.map_singleton, List.dropLast_concat] at hopens
    exact ⟨_, hrun, h.put hopens haccepts hkn hapart,
      follow_mono (fun m hm => directory_put haccepts (hopens.directory hm)) hbase⟩

/-- **Files that are apart are all written**, and nothing else. -/
theorem exists_writeEntries (hbase : t.walk (Path.segments base) = .ok ⟨p, .directory⟩)
    (hnul : Path.hasNul base = false)
    (htext : ∀ w ∈ found, Text.IsText w.1.path)
    (hshort : ∀ w ∈ found, Path.isTooLong (Path.join base w.1.path) = false)
    (hne : ∀ w ∈ found, w.1 ≠ []) (h : Spread p done t)
    (hapart : (done ++ found).Pairwise Apart) :
    ∃ t', (writeEntries base (found.map entryAt)).on t = (.ok (), t') ∧
      Spread p (done ++ found) t' := by
  induction found generalizing done t with
  | nil => exact ⟨t, rfl, by simpa using h⟩
  | cons w found ih =>
    rw [List.forall_mem_cons] at htext hshort hne
    have hdone : ∀ v ∈ done, Apart v w := fun v hv =>
      (List.pairwise_append.1 hapart).2.2 v hv w List.mem_cons_self
    obtain ⟨t₁, hrun, hspread, hbase₁⟩ :=
      exists_writeTarget hbase hnul htext.1 hshort.1 h hne.1 hdone
    have hsplit : done ++ w :: found = done ++ [w] ++ found := by simp
    rw [hsplit] at hapart ⊢
    obtain ⟨t', hrest, hspread'⟩ := ih hbase₁ htext.2 hshort.2 hne.2 hspread hapart
    refine ⟨t', ?_, hspread'⟩
    rw [List.map_cons, on_writeEntries_cons]
    have hfirst : (writeTarget (place base (entryAt w)) (entryAt w).body).on t = (.ok (), t₁) :=
      hrun
    rw [hfirst]
    exact hrest

/-! ## Any entries -/

/-- Whether an entry is written as a file at some names below the base. -/
structure WrittenAt (e : Entry) (k : Location) : Prop where
  names : k.map Name.bytes = Path.components (stripCurrent e.path)
  last : ∃ n, k.getLast? = some n ∧ (Path.segments (stripCurrent e.path)).getLast? = some n.bytes

/-- Each file there is after writing was there before or is that of an entry. -/
theorem file_of_writeEntries {content : ByteArray}
    (hbase : t.walk (Path.segments base) = .ok ⟨p, .directory⟩) (hsafe : ∀ e ∈ b, IsSafe e)
    (hrun : (writeEntries base b).on t = (.ok (), t'))
    (hfile : t'.get? l = some (.file content)) :
    t.get? l = some (.file content) ∨
      ∃ e ∈ b, ∃ k, l = p ++ k ∧ WrittenAt e k ∧ content = e.body.toByteArray := by
  induction b generalizing t with
  | nil =>
    obtain rfl : t = t' := congrArg Prod.snd hrun
    exact .inl hfile
  | cons e rest ih =>
    rw [List.forall_mem_cons] at hsafe
    obtain ⟨front, hsegments, hfront⟩ := exists_front hbase e
    obtain ⟨t₁, hopens, ⟨err, hfirst⟩ | ⟨k, n, hk, hlast, haccepts, hfirst⟩⟩ :=
      writeTarget_cases e.body hfront hsegments (Path.segments_ne_nil _) (isSafe_iff.1 hsafe.1).2.2
    · simp [on_writeEntries_cons, hfirst] at hrun
    · rw [on_writeEntries_cons, hfirst] at hrun
      have hbase₁ : (t₁.put (p ++ k) n (.file e.body.toByteArray)).walk (Path.segments base) =
          .ok ⟨p, .directory⟩ :=
        follow_mono (fun m hm => directory_put haccepts (hopens.directory hm)) hbase
      -- A later entry may write the same file once more, so those are asked first.
      rcases ih hbase₁ hsafe.2 hrun with hold | ⟨e', he', hwritten⟩
      · by_cases hl : l = p ++ k ++ [n]
        · subst hl
          rw [get?_put_self haccepts] at hold
          refine .inr ⟨e, List.mem_cons_self, k ++ [n], by simp, ⟨hk, n, by simp, hlast⟩, ?_⟩
          simpa [eq_comm] using hold
        · rw [get?_put_of_ne hl] at hold
          exact .inl (hopens.file_iff.1 hold)
      · exact .inr ⟨e', List.mem_cons_of_mem _ he', hwritten⟩

end Bundle

end Atelier
