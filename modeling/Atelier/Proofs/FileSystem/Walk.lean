import Atelier.FileSystem.Calls
import Atelier.Proofs.Attempt
import Atelier.Proofs.FileSystem.Segments
import Mathlib.Data.List.Basic
import Mathlib.Tactic.SplitIfs

/-!
# Where a walk leads

A walk follows segments from directory to directory. Without `..` it leads to the place whose names
are its segments that lead somewhere, so that place is known before the walk is made. A walk that
led to a directory still leads there when a tree has grown.
-/

namespace Atelier

/-- What stands below a location makes the location a directory. -/
theorem Forest.get?_of_append {f : Forest} {l k : Location} {item : Item} (hk : k ≠ [])
    (h : f.get? (l ++ k) = some item) : f.get? l = some .directory := by
  induction f generalizing l with
  | nil =>
    cases l with
    | nil => simp
    | cons n l => simp [get?] at h
  | file m content rest ih =>
    cases l with
    | nil => simp
    | cons n l =>
      rw [List.cons_append, get?] at h
      rw [get?]
      split_ifs at h ⊢ <;> simp_all
  | directory m inside rest ihInside ih =>
    cases l with
    | nil => simp
    | cons n l =>
      rw [List.cons_append, get?] at h
      rw [get?]
      split_ifs at h ⊢
      · exact ihInside h
      · exact ih h

namespace FileTree

variable {t t' : FileTree} {here place : Place} {segments front back : List Bytes}
  {segment : Bytes} {l k : Location} {item : Item}

/-- What stands below a location makes the location a directory. -/
theorem get?_of_append (hk : k ≠ []) (h : t.get? (l ++ k) = some item) :
    t.get? l = some .directory :=
  Forest.get?_of_append hk h

theorem get?_dropLast (h : t.get? l = some item) : t.get? l.dropLast = some .directory := by
  rcases List.eq_nil_or_concat' l with rfl | ⟨init, n, rfl⟩
  · simp
  · rw [List.dropLast_concat]
    exact get?_of_append (by simp) h

/-- Nothing stands below a file. -/
theorem get?_append_of_file {content : ByteArray} (h : t.get? l = some (.file content))
    (hk : k ≠ []) : t.get? (l ++ k) = none := by
  cases hi : t.get? (l ++ k) with
  | none => rfl
  | some item =>
    have hd := get?_of_append hk hi
    simp [h] at hd

/-! ## One segment -/

theorem isIdle_bytes (n : Name) : Path.isIdle n.bytes = false := by
  simp [Path.isIdle, n.ne_nil, n.ne_current]

theorem isIdle_of_mem_names {s : Bytes} (h : s ∈ k.map Name.bytes) : Path.isIdle s = false := by
  obtain ⟨n, -, rfl⟩ := List.mem_map.1 h
  exact isIdle_bytes n

theorem up_not_mem_names (k : Location) : Path.up ∉ k.map Name.bytes := by
  rw [List.mem_map]
  rintro ⟨n, -, hn⟩
  exact n.ne_up hn

theorem filter_names (k : Location) :
    (k.map Name.bytes).filter (!Path.isIdle ·) = k.map Name.bytes :=
  List.filter_eq_self.2 fun s hs => by simp [isIdle_of_mem_names hs]

theorem step_idle (h : Path.isIdle segment = true) :
    t.step ⟨l, .directory⟩ segment = .ok ⟨l, .directory⟩ := by
  have hidle : segment = [] ∨ segment = Path.current := by simpa [Path.isIdle] using h
  simp only [step, if_pos hidle]

theorem step_up : t.step ⟨l, .directory⟩ Path.up = .ok ⟨l.dropLast, .directory⟩ := rfl

theorem step_name (n : Name) :
    t.step ⟨l, .directory⟩ n.bytes =
      match t.get? (l ++ [n]) with
      | none => .error .notFound
      | some item => .ok ⟨l ++ [n], item⟩ := by
  have hidle : ¬ (n.bytes = [] ∨ n.bytes = Path.current) := not_or.2 ⟨n.ne_nil, n.ne_current⟩
  cases hget : t.get? (l ++ [n]) with
  | none => simp only [step, if_neg hidle, if_neg n.ne_up, Name.ofBytes?_bytes, hget]
  | some item => simp only [step, if_neg hidle, if_neg n.ne_up, Name.ofBytes?_bytes, hget]

/-- A segment leads nowhere, up, or to what its name stands for. -/
theorem step_eq_ok_iff :
    t.step here segment = .ok place ↔ here.item = .directory ∧
      (Path.isIdle segment = true ∧ place = here ∨
        segment = Path.up ∧ place = ⟨here.location.dropLast, .directory⟩ ∨
        ∃ n : Name, n.bytes = segment ∧ place.location = here.location ++ [n] ∧
          t.get? place.location = some place.item) := by
  obtain ⟨l, item⟩ := here
  obtain ⟨m, found⟩ := place
  constructor
  · intro h
    cases item with
    | file content => simp [step] at h
    | directory =>
      refine ⟨rfl, ?_⟩
      by_cases hidle : Path.isIdle segment = true
      · rw [step_idle hidle] at h
        exact .inl ⟨hidle, (Except.ok.inj h).symm⟩
      · by_cases hup : segment = Path.up
        · subst hup
          exact .inr (.inl ⟨rfl, (Except.ok.inj h).symm⟩)
        · cases hn : Name.ofBytes? segment with
          | none => simp_all [step, Path.isIdle]
          | some n =>
            obtain rfl := Name.bytes_of_ofBytes? hn
            rw [step_name] at h
            cases hg : t.get? (l ++ [n]) with
            | none => simp [hg] at h
            | some item =>
              simp only [hg, Except.ok.injEq, Place.mk.injEq] at h
              obtain ⟨rfl, rfl⟩ := h
              exact .inr (.inr ⟨n, rfl, rfl, hg⟩)
  · rintro ⟨hdir, hway⟩
    obtain rfl : item = .directory := hdir
    rcases hway with ⟨hidle, hplace⟩ | ⟨rfl, hplace⟩ | ⟨n, rfl, hm, hget⟩
    · rw [step_idle hidle, hplace]
    · rw [step_up, hplace]
    · obtain rfl : m = l ++ [n] := hm
      have hfound : t.get? (l ++ [n]) = some found := hget
      rw [step_name, hfound]

/-! ## Many segments -/

/-- Follows segments from a place. -/
def follow (t : FileTree) (here : Place) (segments : List Bytes) : Except OsError Place :=
  segments.foldlM t.step here

theorem walk_eq_follow (t : FileTree) (segments : List Bytes) :
    t.walk segments = t.follow ⟨[], .directory⟩ segments := rfl

@[simp] theorem follow_nil : t.follow here [] = .ok here := rfl

theorem follow_append_eq_ok_iff :
    t.follow here (front ++ back) = .ok place ↔
      ∃ next, t.follow here front = .ok next ∧ t.follow next back = .ok place := by
  rw [follow, List.foldlM_append]
  exact bind_eq_ok_iff

theorem follow_cons_eq_ok_iff :
    t.follow here (segment :: back) = .ok place ↔
      ∃ next, t.step here segment = .ok next ∧ t.follow next back = .ok place := by
  rw [follow, List.foldlM_cons]
  exact bind_eq_ok_iff

/-- Only a directory leads to a directory. -/
theorem item_of_follow (h : t.follow here segments = .ok ⟨l, .directory⟩) :
    here.item = .directory := by
  cases segments with
  | nil =>
    rw [follow_nil, Except.ok.injEq] at h
    rw [h]
  | cons segment rest =>
    obtain ⟨next, hstep, -⟩ := follow_cons_eq_ok_iff.1 h
    exact (step_eq_ok_iff.1 hstep).1

theorem get?_of_follow (hhere : t.get? here.location = some here.item)
    (h : t.follow here segments = .ok place) : t.get? place.location = some place.item := by
  induction segments generalizing here with
  | nil =>
    rw [follow_nil, Except.ok.injEq] at h
    exact h ▸ hhere
  | cons segment rest ih =>
    obtain ⟨next, hstep, hrest⟩ := follow_cons_eq_ok_iff.1 h
    refine ih ?_ hrest
    obtain ⟨hdir, ⟨-, rfl⟩ | ⟨-, rfl⟩ | ⟨n, -, -, hnext⟩⟩ := step_eq_ok_iff.1 hstep
    · exact hhere
    · exact get?_dropLast hhere
    · exact hnext

/-- A walk leads to what stands at the location it tells. -/
theorem get?_of_walk (h : t.walk segments = .ok place) :
    t.get? place.location = some place.item :=
  get?_of_follow (get?_root t) h

/-- **Without `..` the segments that lead somewhere are the names on the way.** -/
theorem location_of_follow (hup : Path.up ∉ segments) (h : t.follow here segments = .ok place) :
    ∃ k : Location, place.location = here.location ++ k ∧
      k.map Name.bytes = segments.filter (!Path.isIdle ·) := by
  induction segments generalizing here with
  | nil =>
    rw [follow_nil, Except.ok.injEq] at h
    exact ⟨[], by simp [h], rfl⟩
  | cons segment rest ih =>
    rw [List.mem_cons, not_or] at hup
    obtain ⟨next, hstep, hrest⟩ := follow_cons_eq_ok_iff.1 h
    obtain ⟨k, hplace, hk⟩ := ih hup.2 hrest
    obtain ⟨-, ⟨hidle, rfl⟩ | ⟨rfl, -⟩ | ⟨n, rfl, hnext, -⟩⟩ := step_eq_ok_iff.1 hstep
    · exact ⟨k, hplace, by simp [hidle, hk]⟩
    · exact absurd rfl hup.1
    · exact ⟨n :: k, by simp [hplace, hnext], by simp [isIdle_bytes, hk]⟩

/-- Names lead from a directory to what stands below it. -/
theorem follow_names (hl : t.get? l = some .directory) (h : t.get? (l ++ k) = some item) :
    t.follow ⟨l, .directory⟩ (k.map Name.bytes) = .ok ⟨l ++ k, item⟩ := by
  induction k generalizing l with
  | nil => simp_all
  | cons n k ih =>
    have hsplit : l ++ n :: k = l ++ [n] ++ k := by simp
    rw [hsplit] at h ⊢
    rw [List.map_cons, follow_cons_eq_ok_iff]
    by_cases hk : k = []
    · subst hk
      rw [List.append_nil] at h ⊢
      exact ⟨⟨l ++ [n], item⟩, step_eq_ok_iff.2 ⟨rfl, .inr (.inr ⟨n, rfl, rfl, h⟩)⟩, rfl⟩
    · have hnext := get?_of_append hk h
      exact ⟨⟨l ++ [n], .directory⟩, step_eq_ok_iff.2 ⟨rfl, .inr (.inr ⟨n, rfl, rfl, hnext⟩)⟩,
        ih hnext h⟩

/-! ## Walks to a directory -/

/-- Segments that lead nowhere can be left out on the way to a directory. -/
theorem follow_filter (h : t.follow here segments = .ok ⟨l, .directory⟩) :
    t.follow here (segments.filter (!Path.isIdle ·)) = .ok ⟨l, .directory⟩ := by
  induction segments generalizing here with
  | nil => exact h
  | cons segment rest ih =>
    obtain ⟨next, hstep, hrest⟩ := follow_cons_eq_ok_iff.1 h
    by_cases hidle : Path.isIdle segment = true
    · obtain ⟨hdir, ⟨-, rfl⟩ | ⟨rfl, -⟩ | ⟨n, rfl, -⟩⟩ := step_eq_ok_iff.1 hstep
      · simpa [hidle] using ih hrest
      · simp at hidle
      · simp [isIdle_bytes] at hidle
    · rw [List.filter_cons_of_pos (by simpa using hidle)]
      exact follow_cons_eq_ok_iff.2 ⟨next, hstep, ih hrest⟩

/-- Segments that lead nowhere can be put in on the way to a directory. -/
theorem follow_of_filter
    (h : t.follow here (segments.filter (!Path.isIdle ·)) = .ok ⟨l, .directory⟩) :
    t.follow here segments = .ok ⟨l, .directory⟩ := by
  induction segments generalizing here with
  | nil => exact h
  | cons segment rest ih =>
    by_cases hidle : Path.isIdle segment = true
    · rw [List.filter_cons_of_neg (by simp [hidle])] at h
      exact follow_cons_eq_ok_iff.2
        ⟨here, step_eq_ok_iff.2 ⟨item_of_follow h, .inl ⟨hidle, rfl⟩⟩, ih h⟩
    · rw [List.filter_cons_of_pos (by simp [hidle])] at h
      obtain ⟨next, hstep, hrest⟩ := follow_cons_eq_ok_iff.1 h
      exact follow_cons_eq_ok_iff.2 ⟨next, hstep, ih hrest⟩

/-- A walk to a directory leads there as long as the directories stay. -/
theorem follow_mono (hkeep : ∀ m, t.get? m = some .directory → t'.get? m = some .directory)
    (h : t.follow here segments = .ok ⟨l, .directory⟩) :
    t'.follow here segments = .ok ⟨l, .directory⟩ := by
  induction segments generalizing here with
  | nil => exact h
  | cons segment rest ih =>
    obtain ⟨next, hstep, hrest⟩ := follow_cons_eq_ok_iff.1 h
    refine follow_cons_eq_ok_iff.2 ⟨next, ?_, ih hrest⟩
    have hnext := item_of_follow hrest
    obtain ⟨hdir, hway⟩ := step_eq_ok_iff.1 hstep
    refine step_eq_ok_iff.2 ⟨hdir, hway.imp_right (Or.imp_right ?_)⟩
    rintro ⟨n, hn, hloc, hget⟩
    rw [hnext] at hget ⊢
    exact ⟨n, hn, hloc, hkeep _ hget⟩

theorem checkPath_eq_ok_iff {path : Bytes} :
    checkPath path = .ok () ↔
      path ≠ [] ∧ Path.hasNul path = false ∧ Path.isTooLong path = false := by
  rw [checkPath]
  split_ifs with hnul hempty hlong
  · simp [hnul]
  · simp [hempty]
  · simp [hlong]
  · simp [hnul, hempty, hlong]

theorem find_eq_ok_iff {path : Bytes} :
    t.find path = .ok place ↔
      (path ≠ [] ∧ Path.hasNul path = false ∧ Path.isTooLong path = false) ∧
        t.walk (Path.segments path) = .ok place := by
  rw [find, bind_eq_ok_iff, ← checkPath_eq_ok_iff]
  constructor
  · rintro ⟨⟨⟩, hcheck, hwalk⟩
    exact ⟨hcheck, mapError_eq_ok_iff.1 hwalk⟩
  · rintro ⟨hcheck, hwalk⟩
    exact ⟨(), hcheck, mapError_eq_ok_iff.2 hwalk⟩

theorem findDirectory_eq_ok_iff :
    t.findDirectory segments = .ok l ↔ t.walk segments = .ok ⟨l, .directory⟩ := by
  rw [findDirectory]
  cases t.walk segments with
  | error e => simp [bind, Except.bind]
  | ok place =>
    obtain ⟨m, item⟩ := place
    cases item <;> simp [bind, Except.bind]

/-- The front of a walk to a directory leads to a directory. -/
theorem walk_front (h : t.walk (front ++ back) = .ok ⟨l, .directory⟩) :
    ∃ m, t.walk front = .ok ⟨m, .directory⟩ ∧
      t.follow ⟨m, .directory⟩ back = .ok ⟨l, .directory⟩ := by
  obtain ⟨⟨m, item⟩, hfront, hback⟩ := follow_append_eq_ok_iff.1 h
  obtain rfl : item = .directory := item_of_follow hback
  exact ⟨m, hfront, hback⟩

theorem walk_append (h : t.walk front = .ok here) :
    t.walk (front ++ back) = t.follow here back := by
  rw [walk_eq_follow] at h ⊢
  rw [follow, List.foldlM_append, ← follow, h]
  rfl

end FileTree

end Atelier
