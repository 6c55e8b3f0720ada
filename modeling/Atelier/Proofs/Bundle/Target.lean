import Atelier.Bundle.Unpack
import Atelier.Proofs.FileSystem.Writing

/-!
# Writing entries one by one

All paths of a bundle are checked first, so a bundle is either refused as a whole or written entry
by entry. Writing an entry adds directories on the way to its file and then, unless an error came
first, the file (`writeTarget_cases`); no error comes when the way is free (`fst_writeTarget`).
-/

namespace Atelier

open Atelier.Action FileAction FileTree

/-- The names of the file that an entry is for: what is left of its path without one leading `./`,
empty segments and `.`. -/
def Entry.names (e : Entry) : List Bytes :=
  Path.components (Bundle.stripCurrent e.path)

/-- The names from the root to the file that an entry is for, when it is written below a prefix. -/
def Entry.way (base : Bytes) (e : Entry) : List Bytes :=
  Path.components base ++ e.names

namespace Bundle

variable {t t' : FileTree} {l k : Location} {n : Name} {front above rest : List Bytes}
  {base path : Bytes} {body : String} {b : Bundle} {e : Entry}

/-! ## One target -/

/-- **All that writing at a path can do**: directories on the way, and then the file or an error. -/
theorem writeTarget_cases (body : String) (hfront : t.walk front = .ok ⟨l, .directory⟩)
    (hpath : Path.segments path = front ++ rest) (hrest : rest ≠ []) (hup : Path.up ∉ rest) :
    ∃ t₁, Opens l (rest.filter (!Path.isIdle ·)).dropLast t t₁ ∧
      ((∃ e, (writeTarget path body).on t = (.error e, t₁)) ∨
        ∃ k n, (k ++ [n]).map Name.bytes = rest.filter (!Path.isIdle ·) ∧
          rest.getLast? = some n.bytes ∧ t₁.Accepts (l ++ k) n ∧
          (writeTarget path body).on t = (.ok (), t₁.put (l ++ k) n (.file body.toByteArray))) := by
  have hopens := opens_makeParents hfront hpath hup
  rcases hmake : (makeParents path).on t with ⟨e | _, t₁⟩
  · rw [hmake] at hopens
    exact ⟨t₁, hopens, .inl ⟨e, on_bind_of_error hmake⟩⟩
  · rw [hmake] at hopens
    have hwrite : (writeTarget path body).on t = (write path body.toByteArray).on t₁ :=
      on_bind_of_ok hmake
    rw [on_write] at hwrite
    cases hw : t₁.writeFile path body.toByteArray with
    | error e =>
      rw [hw] at hwrite
      exact ⟨t₁, hopens, .inl ⟨e, hwrite⟩⟩
    | ok t' =>
      rw [hw] at hwrite
      obtain ⟨-, -, above, parent, n, hsegments, hwalk, hn, rfl⟩ := writeFile_eq_ok_iff.1 hw
      obtain ⟨init, last, rfl⟩ := (List.eq_nil_or_concat' rest).resolve_left hrest
      rw [hpath, ← List.append_assoc] at hsegments
      obtain ⟨rfl, hlast⟩ := List.append_inj' hsegments rfl
      obtain rfl : last = n.bytes := List.singleton_inj.1 hlast
      have hfront' : t₁.walk front = .ok ⟨l, .directory⟩ :=
        follow_mono (fun m hm => hopens.directory hm) hfront
      rw [walk_append hfront'] at hwalk
      have hup' : Path.up ∉ init := fun h => hup (List.mem_append_left _ h)
      obtain ⟨k, hparent, hk⟩ := location_of_follow hup' hwalk
      obtain rfl : parent = l ++ k := hparent
      refine ⟨t₁, hopens, .inr ⟨k, n, ?_, by simp, ⟨?_, hn⟩, hwrite⟩⟩
      · rw [List.map_append, hk, List.filter_append, List.map_singleton,
          List.filter_cons_of_pos (by simp [isIdle_bytes]), List.filter_nil]
      · exact get?_of_follow (get?_of_walk hfront') hwalk

/-- **A file is written where names lead, if no file is in the way and no directory in its
place.** -/
theorem fst_writeTarget (body : String) (hfront : t.walk front = .ok ⟨l, .directory⟩)
    (hpath : Path.segments path = front ++ (above ++ [n.bytes]))
    (habove : above.filter (!Path.isIdle ·) = k.map Name.bytes)
    (hnul : Path.hasNul path = false) (hlong : Path.isTooLong path = false)
    (hfree : ∀ j content, j <+: k → t.get? (l ++ j) ≠ some (.file content))
    (hn : t.get? (l ++ k ++ [n]) ≠ some .directory) :
    ((writeTarget path body).on t).1 = .ok () := by
  have hrest : (above ++ [n.bytes]).filter (!Path.isIdle ·) = (k ++ [n]).map Name.bytes := by
    simp [List.filter_append, habove, isIdle_bytes]
  have hup : Path.up ∉ above ++ [n.bytes] := by
    intro h
    have hmem : Path.up ∈ (above ++ [n.bytes]).filter (!Path.isIdle ·) :=
      List.mem_filter.2 ⟨h, by decide⟩
    exact up_not_mem_names _ (hrest ▸ hmem)
  obtain ⟨hfst, hdir⟩ := fst_makeParents hfront hpath hrest hnul hlong hfree
  have hopens := opens_makeParents hfront hpath hup
  rw [hrest, List.map_append, List.map_singleton, List.dropLast_concat] at hopens
  rcases hmake : (makeParents path).on t with ⟨e | _, t₁⟩
  · simp [hmake] at hfst
  · rw [hmake] at hdir hopens
    have hfront' : t₁.walk front = .ok ⟨l, .directory⟩ :=
      follow_mono (fun m hm => hopens.directory hm) hfront
    have hn' : t₁.get? (l ++ k ++ [n]) ≠ some .directory := by
      rcases hopens (l ++ k ++ [n]) with hsame | ⟨-, -, j, hj, hway⟩
      · rwa [hsame]
      · -- A directory that was made is above the file, not in its place.
        rw [List.append_assoc, List.append_cancel_left_eq] at hj
        have hle := hway.length_le
        rw [← hj, List.length_map, List.length_map, List.length_append,
          List.length_singleton] at hle
        omega
    have hlead : t₁.follow ⟨l, .directory⟩ (above.filter (!Path.isIdle ·)) =
        .ok ⟨l ++ k, .directory⟩ := habove ▸ follow_names (get?_of_walk hfront') hdir
    have hwalk : t₁.walk (front ++ above) = .ok ⟨l ++ k, .directory⟩ :=
      (walk_append hfront').trans (follow_of_filter hlead)
    have hw : t₁.writeFile path body.toByteArray =
        .ok (t₁.put (l ++ k) n (.file body.toByteArray)) :=
      writeFile_eq_ok_iff.2
        ⟨hnul, hlong, _, _, n, by rw [hpath, List.append_assoc], hwalk, hn', rfl⟩
    have hwrite : (writeTarget path body).on t = (write path body.toByteArray).on t₁ :=
      on_bind_of_ok hmake
    rw [hwrite, on_write, hw]

/-- What is written at a path in the end is written in one request. -/
theorem exists_writeFile_of_writeTarget (h : (writeTarget path body).on t = (.ok (), t')) :
    ∃ t₁ : FileTree, t₁.writeFile path body.toByteArray = .ok t' := by
  obtain ⟨_, t₁, -, hwrite⟩ := on_bind_eq_ok_iff.1 h
  rw [on_write] at hwrite
  cases hw : t₁.writeFile path body.toByteArray with
  | error e => simp [hw] at hwrite
  | ok t₂ =>
    rw [hw] at hwrite
    obtain rfl := (Prod.mk.inj hwrite).2
    exact ⟨t₁, hw⟩

/-! ## All targets -/

/-- Whether the path of an entry passes the check. -/
def IsSafe (e : Entry) : Prop :=
  isBelow (stripCurrent e.path) = true

/-- Where an entry is written. -/
def place (base : Bytes) (e : Entry) : Bytes :=
  Path.join base (stripCurrent e.path)

theorem components_place (base : Bytes) (e : Entry) :
    Path.components (place base e) = e.way base :=
  Path.components_join base (stripCurrent e.path)

/-- Writes entries that have passed the check. -/
def writeEntries (base : Bytes) : Bundle → FileAction ToolError Unit
  | [] => pure ()
  | e :: rest => do
    ExceptT.adapt .io (writeTarget (place base e) e.body)
    writeEntries base rest

theorem isPlain_iff {part : Path.Part} : isPlain part = true ↔ part ≠ .root ∧ part ≠ .up := by
  cases part <;> simp [isPlain]

theorem all_isPlain_iff {parts : List Path.Part} :
    parts.all isPlain = true ↔ .root ∉ parts ∧ .up ∉ parts := by
  simp only [List.all_eq_true, isPlain_iff]
  constructor
  · intro h
    exact ⟨fun hroot => (h _ hroot).1 rfl, fun hup => (h _ hup).2 rfl⟩
  · rintro ⟨hroot, hup⟩ part hpart
    exact ⟨fun heq => hroot (heq ▸ hpart), fun heq => hup (heq ▸ hpart)⟩

/-- **The check of a path**, said of its text: no part that leads to the root is a path that starts
with no slash, and no part that leads up is a path without the segment `..`. -/
theorem isSafe_iff :
    IsSafe e ↔ stripCurrent e.path ≠ "" ∧
      (Text.bytes (stripCurrent e.path)).head? ≠ some Path.slash ∧
      Path.up ∉ Path.segments (stripCurrent e.path) := by
  rw [IsSafe, isBelow, decide_eq_true_iff, all_isPlain_iff, Path.root_mem_parts, Path.up_mem_parts,
    Ne, Text.bytes_eq_nil_iff]

theorem target_of_isSafe (h : IsSafe e) : target base e = .ok (place base e) := by
  rw [target]
  exact if_pos h

theorem target_of_not_isSafe (h : ¬ IsSafe e) : target base e = .error (.invalidPath e.path) := by
  rw [target]
  exact if_neg h

theorem mapM_target_of_isSafe (h : ∀ e ∈ b, IsSafe e) :
    b.mapM (target base) = .ok (b.map (place base)) := by
  induction b with
  | nil => rfl
  | cons e rest ih =>
    rw [List.forall_mem_cons] at h
    rw [List.mapM_cons, target_of_isSafe h.1, ih h.2]
    rfl

theorem mapM_target_of_first (base : Bytes) {done rest : Bundle} (hdone : ∀ e ∈ done, IsSafe e)
    (he : ¬ IsSafe e) :
    (done ++ e :: rest).mapM (target base) = .error (.invalidPath e.path) := by
  rw [List.mapM_append, mapM_target_of_isSafe hdone, List.mapM_cons, target_of_not_isSafe he]
  rfl

/-- If some path fails the check then one does first. -/
theorem exists_first_of_not_isSafe (h : ¬ ∀ e ∈ b, IsSafe e) :
    ∃ done e rest, b = done ++ e :: rest ∧ (∀ e ∈ done, IsSafe e) ∧ ¬ IsSafe e := by
  induction b with
  | nil => simp at h
  | cons e rest ih =>
    by_cases he : IsSafe e
    · obtain ⟨done, e', rest, rfl, hdone, he'⟩ :=
        ih fun hrest => h (List.forall_mem_cons.2 ⟨he, hrest⟩)
      exact ⟨e :: done, e', rest, rfl, List.forall_mem_cons.2 ⟨he, hdone⟩, he'⟩
    · exact ⟨[], e, rest, rfl, by simp, he⟩

theorem forM_zip_eq_writeEntries (base : Bytes) (b : Bundle) :
    (((b.map (place base)).zip b).forM fun (path, e) =>
        ExceptT.adapt ToolError.io (writeTarget path e.body)) = writeEntries base b := by
  induction b with
  | nil => rfl
  | cons e rest ih =>
    rw [writeEntries, ← ih]
    rfl

theorem writeTo_of_isSafe (h : ∀ e ∈ b, IsSafe e) :
    b.writeTo base = do
      writeEntries base b
      return b.map (place base) := by
  rw [writeTo, mapM_target_of_isSafe h]
  dsimp only
  rw [← forM_zip_eq_writeEntries]

/-- A bundle is refused with the path that fails the check first, and changes nothing. -/
theorem on_writeTo_of_first (base : Bytes) (t : FileTree) {done rest : Bundle}
    (hdone : ∀ e ∈ done, IsSafe e) (he : ¬ IsSafe e) :
    (writeTo (done ++ e :: rest) base).on t = (.error (.invalidPath e.path), t) := by
  rw [writeTo, mapM_target_of_first base hdone he]
  rfl

/-- A bundle with a path that fails the check changes nothing. -/
theorem on_writeTo_of_not_isSafe (base : Bytes) (t : FileTree) (h : ¬ ∀ e ∈ b, IsSafe e) :
    ∃ e, (b.writeTo base).on t = (.error e, t) := by
  obtain ⟨done, e, rest, rfl, hdone, he⟩ := exists_first_of_not_isSafe h
  exact ⟨_, on_writeTo_of_first base t hdone he⟩

/-- What writing does to a tree is what writing its entries does, if it comes to that. -/
theorem snd_on_writeTo_of_isSafe (h : ∀ e ∈ b, IsSafe e) :
    ((b.writeTo base).on t).2 = ((writeEntries base b).on t).2 := by
  rw [writeTo_of_isSafe h, on_bind]
  rcases (writeEntries base b).on t with ⟨e | _, t'⟩ <;> rfl

theorem on_writeTo_eq_ok_iff {written : List Bytes} :
    (b.writeTo base).on t = (.ok written, t') ↔
      (∀ e ∈ b, IsSafe e) ∧ written = b.map (place base) ∧
        (writeEntries base b).on t = (.ok (), t') := by
  by_cases h : ∀ e ∈ b, IsSafe e
  · rw [writeTo_of_isSafe h, on_bind_eq_ok_iff]
    simp only [on_pure, Prod.mk.injEq, Except.ok.injEq]
    constructor
    · rintro ⟨_, t₁, hrun, rfl, rfl⟩
      exact ⟨h, rfl, hrun⟩
    · rintro ⟨-, rfl, hrun⟩
      exact ⟨(), t', hrun, rfl, rfl⟩
  · obtain ⟨e, he⟩ := on_writeTo_of_not_isSafe base t h
    simp [he, h]

theorem on_writeTo_eq_error_iff {err : ToolError} (h : ∀ e ∈ b, IsSafe e) :
    (b.writeTo base).on t = (.error err, t') ↔ (writeEntries base b).on t = (.error err, t') := by
  rw [writeTo_of_isSafe h, on_bind]
  rcases (writeEntries base b).on t with ⟨err' | _, t₁⟩ <;> simp

theorem on_writeEntries_cons (base : Bytes) (e : Entry) (rest : Bundle) (t : FileTree) :
    (writeEntries base (e :: rest)).on t =
      match (writeTarget (place base e) e.body).on t with
      | (.ok _, t') => (writeEntries base rest).on t'
      | (.error e, t') => (.error (.io e), t') := by
  rw [writeEntries, on_bind, on_adapt]
  rcases (writeTarget (place base e) e.body).on t with ⟨err | _, t'⟩ <;> rfl

end Bundle

end Atelier
