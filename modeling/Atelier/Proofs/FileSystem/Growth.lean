import Atelier.Proofs.FileSystem.Action
import Atelier.Proofs.FileSystem.Segments
import Atelier.Proofs.FileSystem.Walk

/-!
# How requests make a tree grow

Making directories adds directories on the one way that was asked for and nothing else, however far
it gets (`Opens`); it succeeds when no file is in the way. Writing a file puts it under the last
segment of its path, in the directory that the others lead to.

The way may start behind segments that lead to a directory already, `..` among them.
-/

namespace Atelier.FileTree

open Atelier.Action FileAction

variable {t t' t₁ : FileTree} {l m k parent : Location} {n : Name} {item : Item}
  {front way segments above : List Bytes} {segment : Bytes} {e : OsError}

/-! ## Putting an item where it is accepted -/

theorem get?_put_self (h : t.Accepts parent n) :
    (t.put parent n item).get? (parent ++ [n]) = some item := by
  rw [get?_put, if_pos ⟨rfl, h⟩]

theorem get?_put_of_ne (h : l ≠ parent ++ [n]) : (t.put parent n item).get? l = t.get? l := by
  rw [get?_put, if_neg fun hl => h hl.1]

/-- What stands below a location after an item was put below it. -/
theorem get?_put_append {p : Location} (h : t.Accepts (p ++ k) n) (l : Location) :
    (t.put (p ++ k) n item).get? (p ++ l) =
      if l = k ++ [n] then some item else t.get? (p ++ l) := by
  rw [get?_put]
  simp only [List.append_assoc, List.append_cancel_left_eq, h, and_true]

/-- Only a file is ever replaced. -/
theorem directory_put (h : t.Accepts parent n) (hm : t.get? m = some .directory) :
    (t.put parent n item).get? m = some .directory := by
  have hne : m ≠ parent ++ [n] := by
    rintro rfl
    exact h.2 hm
  rw [get?_put_of_ne hne, hm]

theorem accepts_of_none (hp : t.get? parent = some .directory)
    (hn : t.get? (parent ++ [n]) = none) : t.Accepts parent n :=
  ⟨hp, by rw [← get?, hn]; simp⟩

/-! ## Directories on a way -/

/-- Whether a tree differs only by directories added on a way behind a location. -/
def Opens (l : Location) (way : List Bytes) (t t' : FileTree) : Prop :=
  ∀ m, t'.get? m = t.get? m ∨
    (t.get? m = none ∧ t'.get? m = some .directory ∧
      ∃ k : Location, m = l ++ k ∧ k.map Name.bytes <+: way)

theorem Opens.refl (t : FileTree) : Opens l way t t := fun _ => .inl rfl

theorem Opens.trans (h : Opens l way t t₁) (h' : Opens l way t₁ t') : Opens l way t t' := by
  intro m
  rcases h m with hm | ⟨hnone, hdir, hway⟩
  · rcases h' m with hm' | ⟨hnone, hdir, hway⟩
    · exact .inl (hm'.trans hm)
    · exact .inr ⟨hm ▸ hnone, hdir, hway⟩
  · rcases h' m with hm' | ⟨hnone', -⟩
    · exact .inr ⟨hnone, hm' ▸ hdir, hway⟩
    · simp [hdir] at hnone'

theorem Opens.mono {longer : List Bytes} (hway : way <+: longer) (h : Opens l way t t') :
    Opens l longer t t' := fun m =>
  (h m).imp_right fun ⟨hnone, hdir, k, hm, hk⟩ => ⟨hnone, hdir, k, hm, hk.trans hway⟩

theorem Opens.directory (h : Opens l way t t') (hm : t.get? m = some .directory) :
    t'.get? m = some .directory := by
  rcases h m with hm' | ⟨hnone, -⟩
  · rw [hm', hm]
  · simp [hm] at hnone

theorem Opens.file_iff {content : ByteArray} (h : Opens l way t t') :
    t'.get? m = some (.file content) ↔ t.get? m = some (.file content) := by
  rcases h m with hm | ⟨hnone, hdir, -⟩
  · rw [hm]
  · simp [hnone, hdir]

theorem opens_put (hp : t.get? (l ++ k) = some .directory) (hn : t.get? (l ++ k ++ [n]) = none)
    (hway : (k ++ [n]).map Name.bytes <+: way) : Opens l way t (t.put (l ++ k) n .directory) := by
  intro m
  by_cases hm : m = l ++ k ++ [n]
  · subst hm
    exact .inr ⟨hn, get?_put_self (accepts_of_none hp hn), k ++ [n], by simp, hway⟩
  · exact .inl (get?_put_of_ne hm)

/-! ## Making one directory -/

theorem makeDirectory_bytes (t : FileTree) (parent : Location) (n : Name) :
    t.makeDirectory parent n.bytes =
      match t.get? (parent ++ [n]) with
      | some _ => .error .alreadyExists
      | none => .ok (t.put parent n .directory, parent ++ [n]) := by
  cases hget : t.get? (parent ++ [n]) with
  | none => simp only [makeDirectory, if_neg n.ne_up, Name.ofBytes?_bytes, hget]
  | some item => simp only [makeDirectory, if_neg n.ne_up, Name.ofBytes?_bytes, hget]

theorem makeDirectory_eq_ok (h : t.makeDirectory parent segment = .ok (t', l)) :
    ∃ n : Name, n.bytes = segment ∧ t.get? (parent ++ [n]) = none ∧
      t' = t.put parent n .directory ∧ l = parent ++ [n] := by
  rw [makeDirectory] at h
  split_ifs at h
  cases hn : Name.ofBytes? segment with
  | none => simp [hn] at h
  | some n =>
    cases hg : t.get? (parent ++ [n]) with
    | some item => simp [hn, hg] at h
    | none =>
      simp only [hn, hg, Except.ok.injEq, Prod.mk.injEq] at h
      exact ⟨n, Name.bytes_of_ofBytes? hn, hg, h.1.symm, h.2.symm⟩

theorem makeDirectory_ne_notFound : t.makeDirectory parent segment ≠ .error .notFound := by
  rw [makeDirectory]
  split_ifs
  · simp
  · split
    · simp
    · split <;> simp

/-! ## Making all directories on a way -/

/-- What is left of making the directories on a way: only such directories are new, and the one that
is told is the last of them. -/
structure Made (l : Location) (way : List Bytes) (t : FileTree)
    (result : Except OsError Location × FileTree) : Prop where
  opens : Opens l way t result.2
  reached : ∀ m, result.1 = .ok m →
    (∃ k : Location, m = l ++ k ∧ k.map Name.bytes = way) ∧ result.2.get? m = some .directory

theorem Made.of_error (h : Opens l way t t') : Made l way t (.error e, t') :=
  ⟨h, by simp⟩

/-- A directory behind a way is at the names of the way. -/
theorem location_of_walk (hfront : t.walk front = .ok ⟨l, .directory⟩) (hup : Path.up ∉ way)
    (hidle : ∀ s ∈ way, Path.isIdle s = false) (h : t.walk (front ++ way) = .ok ⟨m, .directory⟩) :
    (∃ k : Location, m = l ++ k ∧ k.map Name.bytes = way) ∧ t.get? m = some .directory := by
  refine ⟨?_, get?_of_walk h⟩
  obtain ⟨next, hnext, hway⟩ := follow_append_eq_ok_iff.1 h
  obtain rfl : next = ⟨l, .directory⟩ := Except.ok.inj (hnext.symm.trans hfront)
  obtain ⟨k, hm, hk⟩ := location_of_follow hup hway
  rw [List.filter_eq_self.2 fun s hs => by simp [hidle s hs]] at hk
  exact ⟨k, hm, hk⟩

theorem made_settle {outcome : Except OsError (FileTree × Location)}
    (hfront : t.walk front = .ok ⟨l, .directory⟩) (hup : Path.up ∉ way)
    (hidle : ∀ s ∈ way, Path.isIdle s = false)
    (hok : ∀ t' m, outcome = .ok (t', m) → Made l way t (.ok m, t')) :
    Made l way t ((settle (front ++ way) outcome).on t) := by
  rcases outcome with e | ⟨t', m⟩
  · rw [on_settle_error]
    cases hd : t.findDirectory (front ++ way) with
    | error e' => exact .of_error (.refl t)
    | ok m =>
      refine ⟨.refl t, ?_⟩
      rintro m' ⟨rfl⟩
      exact location_of_walk hfront hup hidle (findDirectory_eq_ok_iff.1 hd)
  · exact hok t' m rfl

/-- One more directory at the end of a way. -/
theorem made_makeDirectory (hp : t.get? (l ++ k) = some .directory) (hk : k.map Name.bytes = way)
    (h : t.makeDirectory (l ++ k) segment = .ok (t', m)) :
    Made l (way ++ [segment]) t (.ok m, t') := by
  obtain ⟨n, rfl, hn, rfl, rfl⟩ := makeDirectory_eq_ok h
  have hway : (k ++ [n]).map Name.bytes = way ++ [n.bytes] := by simp [hk]
  refine ⟨opens_put hp hn (hway ▸ List.prefix_refl _), ?_⟩
  rintro m ⟨rfl⟩
  exact ⟨⟨k ++ [n], by simp, hway⟩, get?_put_self (accepts_of_none hp hn)⟩

/-- A directory that is there already is found and nothing is made. -/
theorem on_makeDirectories_of_walk (h : t.walk segments = .ok ⟨m, .directory⟩) :
    (makeDirectories segments.reverse).on t = (.ok m, t) := by
  rcases List.eq_nil_or_concat' segments with rfl | ⟨init, segment, rfl⟩
  · obtain rfl : [] = m := by simpa [walk_eq_follow] using h
    rfl
  · obtain ⟨p, hinit, hlast⟩ := walk_front h
    have hfind : t.findDirectory (init.reverse.reverse) = .ok p := by
      rw [List.reverse_reverse, findDirectory_eq_ok_iff, hinit]
    have houtcome : t.findDirectory init.reverse.reverse >>= (t.makeDirectory · segment) =
        t.makeDirectory p segment := by rw [hfind]; rfl
    rw [List.reverse_append, List.reverse_singleton, List.singleton_append,
      on_makeDirectories_cons (by rw [houtcome]; exact makeDirectory_ne_notFound), houtcome]
    simp only [List.reverse_cons, List.reverse_reverse]
    cases hmake : t.makeDirectory p segment with
    | error e => rw [on_settle_error, findDirectory_eq_ok_iff.2 h]
    | ok made =>
      -- The last segment stands for a directory, so none was made under its name.
      obtain ⟨t', m'⟩ := made
      obtain ⟨n, rfl, hn, -⟩ := makeDirectory_eq_ok hmake
      obtain ⟨next, hstep, hnil⟩ := follow_cons_eq_ok_iff.1 hlast
      rw [step_name, hn] at hstep
      simp at hstep

/-- **Making directories adds directories on the way, and nothing else, however far it gets.** -/
theorem made_makeDirectories (hfront : t.walk front = .ok ⟨l, .directory⟩) (hup : Path.up ∉ way)
    (hidle : ∀ s ∈ way, Path.isIdle s = false) :
    Made l way t ((makeDirectories (front ++ way).reverse).on t) := by
  induction way using List.reverseRecOn with
  | nil =>
    rw [List.append_nil, on_makeDirectories_of_walk hfront]
    refine ⟨.refl t, ?_⟩
    rintro m ⟨rfl⟩
    exact ⟨⟨[], by simp⟩, get?_of_walk hfront⟩
  | append_singleton way segment ih =>
    have hup' : Path.up ∉ way := fun h => hup (List.mem_append_left _ h)
    have hidle' : ∀ s ∈ way, Path.isIdle s = false :=
      fun s hs => hidle s (List.mem_append_left _ hs)
    have ih := ih hup' hidle'
    rw [← List.append_assoc, List.reverse_append, List.reverse_singleton, List.singleton_append]
    have hreverse : (segment :: (front ++ way).reverse).reverse = front ++ (way ++ [segment]) := by
      simp
    by_cases houtcome : t.findDirectory (front ++ way).reverse.reverse >>=
        (t.makeDirectory · segment) = .error .notFound
    · -- The way to the directory is made first, and then the directory is tried once more.
      rw [on_makeDirectories_of_missing houtcome, hreverse]
      rcases hr : (makeDirectories (front ++ way).reverse).on t with ⟨e | parent, t₁⟩
      · rw [hr] at ih
        exact .of_error (ih.opens.mono (List.prefix_append _ _))
      · rw [hr] at ih
        obtain ⟨⟨k, rfl, hk⟩, hdir⟩ := ih.reached parent rfl
        have hopens : Opens l (way ++ [segment]) t t₁ := ih.opens.mono (List.prefix_append _ _)
        have hfront' : t₁.walk front = .ok ⟨l, .directory⟩ :=
          follow_mono (fun m hm => ih.opens.directory hm) hfront
        have hlast : ∀ t' m, t₁.makeDirectory (l ++ k) segment = .ok (t', m) →
            Made l (way ++ [segment]) t₁ (.ok m, t') := fun t' m h => made_makeDirectory hdir hk h
        have hmade := made_settle hfront' hup hidle hlast
        exact ⟨hopens.trans hmade.opens, hmade.reached⟩
    · rw [on_makeDirectories_cons houtcome, hreverse]
      refine made_settle hfront hup hidle fun t' m h => ?_
      rw [List.reverse_reverse] at h
      obtain ⟨parent, hd, h⟩ := bind_eq_ok_iff.1 h
      obtain ⟨⟨k, rfl, hk⟩, hdir⟩ :=
        location_of_walk hfront hup' hidle' (findDirectory_eq_ok_iff.1 hd)
      exact made_makeDirectory hdir hk h

/-! ## When a way can be made -/

/-- A walk along names that meets no file ends where the first directory is missing. -/
theorem follow_eq_notFound (hl : t.get? l = some .directory) (hnone : t.get? (l ++ k) = none)
    (hfree : ∀ j content, j <+: k → t.get? (l ++ j) ≠ some (.file content)) :
    t.follow ⟨l, .directory⟩ (k.map Name.bytes) = .error .notFound := by
  induction k generalizing l with
  | nil => simp [hl] at hnone
  | cons n k ih =>
    rw [List.map_cons, follow, List.foldlM_cons, step_name]
    cases hg : t.get? (l ++ [n]) with
    | none => rfl
    | some item =>
      cases item with
      | file content => exact absurd hg (hfree [n] content (by simp))
      | directory =>
        refine ih hg (by simpa using hnone) fun j content hj => ?_
        have hfree' := hfree (n :: j) content (List.cons_prefix_cons.2 ⟨rfl, hj⟩)
        simpa using hfree'

theorem fst_settle_makeDirectory (hp : t.walk segments = .ok ⟨parent, .directory⟩)
    (hfree : ∀ content, t.get? (parent ++ [n]) ≠ some (.file content)) :
    ((settle (segments ++ [n.bytes]) (t.makeDirectory parent n.bytes)).on t).1 =
      .ok (parent ++ [n]) := by
  rw [makeDirectory_bytes]
  cases hg : t.get? (parent ++ [n]) with
  | none => rfl
  | some item =>
    cases item with
    | file content => exact absurd hg (hfree content)
    | directory =>
      have hwalk : t.walk (segments ++ [n.bytes]) = .ok ⟨parent ++ [n], .directory⟩ :=
        (walk_append hp).trans (follow_names (k := [n]) (get?_of_walk hp) hg)
      dsimp only
      rw [on_settle_error, findDirectory_eq_ok_iff.2 hwalk]

/-- **Directories are made when no file is in the way.** -/
theorem fst_makeDirectories (hfront : t.walk front = .ok ⟨l, .directory⟩)
    (hfree : ∀ j content, j <+: k → t.get? (l ++ j) ≠ some (.file content)) :
    ((makeDirectories (front ++ k.map Name.bytes).reverse).on t).1 = .ok (l ++ k) := by
  induction k using List.reverseRecOn with
  | nil => simpa using congrArg Prod.fst (on_makeDirectories_of_walk hfront)
  | append_singleton k n ih =>
    have hl := get?_of_walk hfront
    have hfree' : ∀ j content, j <+: k → t.get? (l ++ j) ≠ some (.file content) :=
      fun j content hj => hfree j content (hj.trans (List.prefix_append _ _))
    have hreverse : (n.bytes :: (front ++ k.map Name.bytes).reverse).reverse =
        front ++ k.map Name.bytes ++ [n.bytes] := by simp
    rw [List.map_append, List.map_singleton, ← List.append_assoc, List.reverse_append,
      List.reverse_singleton, List.singleton_append, ← List.append_assoc]
    cases hk : t.get? (l ++ k) with
    | some item =>
      cases item with
      | file content => exact absurd hk (hfree' k content (List.prefix_refl k))
      | directory =>
        have hwalk := (walk_append hfront).trans (follow_names hl hk)
        have houtcome : t.findDirectory (front ++ k.map Name.bytes).reverse.reverse >>=
            (t.makeDirectory · n.bytes) = t.makeDirectory (l ++ k) n.bytes := by
          rw [List.reverse_reverse, findDirectory_eq_ok_iff.2 hwalk]
          rfl
        rw [on_makeDirectories_cons (by rw [houtcome]; exact makeDirectory_ne_notFound), houtcome,
          hreverse]
        refine fst_settle_makeDirectory hwalk fun content => ?_
        simpa using hfree (k ++ [n]) content (List.prefix_refl _)
    | none =>
      have hwalk := (walk_append hfront).trans (follow_eq_notFound hl hk hfree')
      have houtcome : t.findDirectory (front ++ k.map Name.bytes).reverse.reverse >>=
          (t.makeDirectory · n.bytes) = .error .notFound := by
        rw [List.reverse_reverse, findDirectory, hwalk]
        rfl
      rw [on_makeDirectories_of_missing houtcome, hreverse]
      have hmade := made_makeDirectories hfront (up_not_mem_names k)
        fun _ => isIdle_of_mem_names
      have ih := ih hfree'
      rcases hr : (makeDirectories (front ++ k.map Name.bytes).reverse).on t with ⟨e | p, t₁⟩
      · rw [hr] at ih
        simp at ih
      · rw [hr] at ih hmade
        obtain rfl : p = l ++ k := by simpa using ih
        obtain ⟨-, hdir⟩ := hmade.reached _ rfl
        have hfront' : t₁.walk front = .ok ⟨l, .directory⟩ :=
          follow_mono (fun m hm => hmade.opens.directory hm) hfront
        have hwalk' := (walk_append hfront').trans (follow_names (get?_of_walk hfront') hdir)
        refine fst_settle_makeDirectory hwalk' fun content hfile => ?_
        have hfile' := hmade.opens.file_iff.1 hfile
        exact hfree (k ++ [n]) content (List.prefix_refl _) (by simpa using hfile')

end Atelier.FileTree
