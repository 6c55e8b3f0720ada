import Atelier.Proofs.FileSystem.Growth

/-!
# Writing at a path text

What a path text has to be like for a file to be written there, and what making the directories
above it does. The segments of the path are taken in two parts: those that lead to a directory for
certain, and the rest, in which `..` does not occur.
-/

namespace Atelier

namespace Path

variable {path s : Bytes} {parts more : List Bytes}

/-! ## Parts of a path text -/

theorem infix_of_mem_segments (h : s ∈ segments path) : s <:+: path := by
  have hin : s <:+: ofSegments (segments path) := Text.infix_intercalate h
  rwa [ofSegments_segments] at hin

theorem hasNul_of_mem_segments (hnul : hasNul path = false) (h : s ∈ segments path) :
    hasNul s = false := by
  simp only [hasNul, List.contains_eq_mem, decide_eq_false_iff_not] at hnul ⊢
  exact fun hs => hnul ((infix_of_mem_segments h).subset hs)

/-- A path text that ends in a name is not empty. -/
theorem ne_nil_of_segments {n : Name} (h : segments path = parts ++ [n.bytes]) : path ≠ [] := by
  rintro rfl
  have hlast := congrArg List.getLast? h
  rw [segments_nil, List.getLast?_concat, List.getLast?_singleton] at hlast
  exact n.ne_nil (Option.some.inj hlast).symm

/-- Fewer segments make a path text that is no longer. -/
theorem length_ofSegments_le (h : parts.Sublist more) :
    (ofSegments parts).length ≤ (ofSegments more).length := by
  induction h with
  | slnil => exact Nat.le_refl _
  | @cons parts more s hsub ih =>
    by_cases hmore : more = []
    · subst hmore
      simp [List.eq_nil_of_sublist_nil hsub]
    · rw [ofSegments_cons s hmore, List.length_append, List.length_cons]
      omega
  | @cons_cons parts more s hsub ih =>
    by_cases hmore : more = []
    · subst hmore
      simp [List.eq_nil_of_sublist_nil hsub]
    · rw [ofSegments_cons s hmore]
      by_cases hparts : parts = []
      · rw [hparts, ofSegments_singleton, List.length_append]
        omega
      · rw [ofSegments_cons s hparts]
        simp only [List.length_append, List.length_cons]
        omega

/-- What is above a path is no longer than the path. -/
theorem isTooLong_parent (h : isTooLong path = false) : isTooLong (parent path) = false := by
  have hpre : ((((segments path).reverse.dropWhile isIdle).tail).dropWhile isIdle).reverse <+:
      segments path := by
    rw [← List.reverse_suffix, List.reverse_reverse]
    exact (List.dropWhile_suffix _).trans ((List.tail_suffix _).trans (List.dropWhile_suffix _))
  have hsize := length_ofSegments_le hpre.sublist
  rw [ofSegments_segments] at hsize
  rw [isTooLong, decide_eq_false_iff_not] at h ⊢
  rw [parent]
  omega

end Path

namespace FileTree

open Atelier.Action FileAction

variable {t t' t₁ : FileTree} {l k parent : Location} {n : Name}
  {front rest above segments : List Bytes} {path last : Bytes} {content : ByteArray}

/-! ## Writing a file -/

theorem putFile_eq_ok_iff :
    t.putFile parent last content = .ok t' ↔
      ∃ n : Name, last = n.bytes ∧ t.get? (parent ++ [n]) ≠ some .directory ∧
        t' = t.put parent n (.file content) := by
  constructor
  · intro h
    rw [putFile] at h
    cases hn : Name.ofBytes? last with
    | none => simp [hn] at h
    | some n =>
      simp only [hn] at h
      split at h
      · cases h
      · rename_i hget
        exact ⟨n, (Name.bytes_of_ofBytes? hn).symm, hget, (Except.ok.inj h).symm⟩
  · rintro ⟨n, rfl, hget, rfl⟩
    cases hitem : t.get? (parent ++ [n]) with
    | none => simp only [putFile, Name.ofBytes?_bytes, hitem]
    | some item =>
      cases item with
      | directory => exact absurd hitem hget
      | file old => simp only [putFile, Name.ofBytes?_bytes, hitem]

/-- Segments that end in an empty one are refused whatever the others are. -/
theorem writeAt_ne_ok_of_slash : t.writeAt (above ++ [[]]) content ≠ .ok t' := by
  have hshorter : ((above ++ [[]]).reverse.dropWhile (· = [])).reverse.length <
      (above ++ [[]]).length := by
    have hle := (List.dropWhile_suffix (fun s : Bytes => s = []) (l := above.reverse)).length_le
    simp only [List.reverse_append, List.reverse_singleton, List.singleton_append,
      List.dropWhile_cons, List.length_reverse, List.length_append, List.length_singleton] at hle ⊢
    simpa using Nat.lt_succ_of_le hle
  rw [writeAt]
  split
  · simp
  · intro h
    obtain ⟨parent, -, h⟩ := bind_eq_ok_iff.1 h
    rw [if_pos (.inr (.inr hshorter))] at h
    cases h

theorem writeAt_of_ne_nil (hlast : last ≠ []) :
    t.writeAt (above ++ [last]) content =
      t.findDirectory above >>= fun parent =>
        if last = Path.current ∨ last = Path.up then .error .isADirectory
        else t.putFile parent last content := by
  have htrim : ((above ++ [last]).reverse.dropWhile (· = [])).reverse = above ++ [last] := by
    simp [hlast]
  rw [writeAt]
  simp only [htrim, List.getLast?_concat, List.dropLast_concat, Nat.lt_irrefl, or_false]

theorem writeAt_eq_ok_iff :
    t.writeAt segments content = .ok t' ↔
      ∃ above parent, ∃ n : Name, segments = above ++ [n.bytes] ∧
        t.walk above = .ok ⟨parent, .directory⟩ ∧ t.get? (parent ++ [n]) ≠ some .directory ∧
        t' = t.put parent n (.file content) := by
  constructor
  · intro h
    rcases List.eq_nil_or_concat' segments with rfl | ⟨above, last, rfl⟩
    · cases h
    · have hlast : last ≠ [] := by
        rintro rfl
        exact writeAt_ne_ok_of_slash h
      rw [writeAt_of_ne_nil hlast] at h
      obtain ⟨parent, hfind, h⟩ := bind_eq_ok_iff.1 h
      split_ifs at h
      obtain ⟨n, rfl, hn⟩ := putFile_eq_ok_iff.1 h
      exact ⟨above, parent, n, rfl, findDirectory_eq_ok_iff.1 hfind, hn⟩
  · rintro ⟨above, parent, n, rfl, hwalk, hn⟩
    have hdots : ¬ (n.bytes = Path.current ∨ n.bytes = Path.up) :=
      not_or.2 ⟨n.ne_current, n.ne_up⟩
    rw [writeAt_of_ne_nil n.ne_nil]
    refine bind_eq_ok_iff.2 ⟨parent, findDirectory_eq_ok_iff.2 hwalk, ?_⟩
    rw [if_neg hdots]
    exact putFile_eq_ok_iff.2 ⟨n, rfl, hn⟩

/-- A file is written in a directory that is there, under a name that is no directory's. -/
theorem writeFile_eq_ok_iff :
    t.writeFile path content = .ok t' ↔
      Path.hasNul path = false ∧ Path.isTooLong path = false ∧
        ∃ above parent, ∃ n : Name, Path.segments path = above ++ [n.bytes] ∧
          t.walk above = .ok ⟨parent, .directory⟩ ∧ t.get? (parent ++ [n]) ≠ some .directory ∧
          t' = t.put parent n (.file content) := by
  rw [writeFile, bind_eq_ok_iff]
  constructor
  · rintro ⟨⟨⟩, hcheck, hwrite⟩
    obtain ⟨-, hnul, hlong⟩ := checkPath_eq_ok_iff.1 hcheck
    exact ⟨hnul, hlong, writeAt_eq_ok_iff.1 (mapError_eq_ok_iff.1 hwrite)⟩
  · rintro ⟨hnul, hlong, hwrite⟩
    have ⟨_, _, _, hsegments, _⟩ := hwrite
    exact ⟨(), checkPath_eq_ok_iff.2 ⟨Path.ne_nil_of_segments hsegments, hnul, hlong⟩,
      mapError_eq_ok_iff.2 (writeAt_eq_ok_iff.2 hwrite)⟩

/-! ## Making the directories above -/

/-- The components of a path lead where its segments lead, but for those that come last. -/
theorem components_eq_append (hpath : Path.segments path = front ++ rest) :
    Path.components path = front.filter (!Path.isIdle ·) ++ rest.filter (!Path.isIdle ·) := by
  rw [Path.components_eq, hpath, List.filter_append]

theorem opens_makeParents (hfront : t.walk front = .ok ⟨l, .directory⟩)
    (hpath : Path.segments path = front ++ rest) (hup : Path.up ∉ rest) :
    Opens l (rest.filter (!Path.isIdle ·)).dropLast t ((makeParents path).on t).2 := by
  have hlead : t.walk (front.filter (!Path.isIdle ·)) = .ok ⟨l, .directory⟩ := follow_filter hfront
  have hcomponents := components_eq_append hpath
  rw [on_makeParents]
  split_ifs
  · exact .refl t
  · exact .refl t
  · dsimp only
    by_cases hrest : rest.filter (!Path.isIdle ·) = []
    · -- The whole path leads to a directory that is there, so there is nothing to make.
      rw [hrest, List.append_nil] at hcomponents
      rw [hcomponents, hrest]
      rcases List.eq_nil_or_concat' (front.filter (!Path.isIdle ·)) with hnil | ⟨init, s, hinit⟩
      · rw [hnil]
        exact .refl t
      · rw [hinit] at hlead ⊢
        obtain ⟨m, hm, -⟩ := walk_front hlead
        rw [List.dropLast_concat, on_makeDirectories_of_walk hm]
        exact .refl t
    · rw [hcomponents, List.dropLast_append_of_ne_nil hrest]
      refine (made_makeDirectories hlead (fun h => hup ?_) fun s hs => ?_).opens
      · exact List.mem_of_mem_filter (List.mem_of_mem_dropLast h)
      · simpa using (List.mem_filter.1 (List.mem_of_mem_dropLast hs)).2

theorem fst_makeParents (hfront : t.walk front = .ok ⟨l, .directory⟩)
    (hpath : Path.segments path = front ++ rest)
    (hrest : rest.filter (!Path.isIdle ·) = (k ++ [n]).map Name.bytes)
    (hnul : Path.hasNul path = false) (hlong : Path.isTooLong path = false)
    (hfree : ∀ j content, j <+: k → t.get? (l ++ j) ≠ some (.file content)) :
    ((makeParents path).on t).1 = .ok () ∧
      ((makeParents path).on t).2.get? (l ++ k) = some .directory := by
  have hlead : t.walk (front.filter (!Path.isIdle ·)) = .ok ⟨l, .directory⟩ := follow_filter hfront
  have habove : (Path.components path).dropLast =
      front.filter (!Path.isIdle ·) ++ k.map Name.bytes := by
    rw [components_eq_append hpath, hrest, List.map_append, ← List.append_assoc]
    exact List.dropLast_concat
  have hclear : ¬ (Path.components path).dropLast.any Path.hasNul = true := by
    simp only [List.any_eq_true, not_exists, not_and, Bool.not_eq_true]
    exact fun s hs => Path.hasNul_of_mem_segments hnul
      (List.mem_of_mem_filter (List.mem_of_mem_dropLast hs))
  have hshort : ¬ Path.isTooLong (Path.parent path) = true := by
    simp [Path.isTooLong_parent hlong]
  have hfst := fst_makeDirectories hlead hfree
  have hmade := made_makeDirectories hlead (up_not_mem_names k) fun _ => isIdle_of_mem_names
  rw [on_makeParents, if_neg hclear, if_neg hshort, habove]
  dsimp only
  rw [hfst]
  exact ⟨rfl, (hmade.reached _ hfst).2⟩

end FileTree

end Atelier
