import Atelier.Proofs.Bundle.Target

/-!
# Unpacking stays below its prefix

Whatever paths a text names, and wherever the work ends, unpacking it writes files strictly below
the prefix only, and makes no directory but the prefix, those above it and those below it. Nothing
that was there goes away, and no file becomes a directory or the other way round.

The path check keeps `..` out of every target, so the components of a target are those of the prefix
and then some. One write is confined for that reason, and confined changes add up.
-/

namespace Atelier

open FileTree Atelier.Action FileAction

/-- Whether a location is strictly below the place of a path text without `..`. -/
def Location.IsInside (base : Bytes) (l : Location) : Prop :=
  ∃ below, below ≠ [] ∧ l.map Name.bytes = Path.components base ++ below

/-- Whether a location is the place of a path text without `..`, or above it. -/
def Location.IsOnWay (base : Bytes) (l : Location) : Prop :=
  l.map Name.bytes <+: Path.components base

namespace FileTree

/-- Whether a change of a tree is confined to what is below a prefix. -/
structure Confined (base : Bytes) (t t' : FileTree) : Prop where
  file_inside : ∀ l content, t'.get? l = some (.file content) →
    t.get? l ≠ some (.file content) → l.IsInside base
  directory_inside : ∀ l, t'.get? l = some .directory →
    t.get? l ≠ some .directory → l.IsOnWay base ∨ l.IsInside base
  keeps_file : ∀ l content, t.get? l = some (.file content) →
    ∃ content', t'.get? l = some (.file content')
  keeps_directory : ∀ l, t.get? l = some .directory → t'.get? l = some .directory

variable {base path : Bytes} {t t₁ t' : FileTree} {k : Location} {n : Name}
  {way below : List Bytes}

theorem Confined.refl (base : Bytes) (t : FileTree) : Confined base t t where
  file_inside := fun _ _ h h' => absurd h h'
  directory_inside := fun _ h h' => absurd h h'
  keeps_file := fun _ content h => ⟨content, h⟩
  keeps_directory := fun _ h => h

theorem Confined.trans (h : Confined base t t₁) (h' : Confined base t₁ t') :
    Confined base t t' where
  file_inside := by
    intro l content hnew hold
    by_cases hmid : t₁.get? l = some (.file content)
    · exact h.file_inside l content hmid hold
    · exact h'.file_inside l content hnew hmid
  directory_inside := by
    intro l hnew hold
    by_cases hmid : t₁.get? l = some .directory
    · exact h.directory_inside l hmid hold
    · exact h'.directory_inside l hnew hmid
  keeps_file := by
    intro l content hold
    obtain ⟨content₁, hmid⟩ := h.keeps_file l content hold
    exact h'.keeps_file l content₁ hmid
  keeps_directory := fun l hold => h'.keeps_directory l (h.keeps_directory l hold)

/-! ## One write -/

/-- A way that starts like the prefix stays on the way to it or gets inside. -/
theorem isOnWay_or_isInside (h : k.map Name.bytes <+: Path.components base ++ below) :
    k.IsOnWay base ∨ k.IsInside base := by
  rcases List.prefix_or_prefix_of_prefix h (List.prefix_append _ _) with hway | ⟨rest, hrest⟩
  · exact .inl hway
  · by_cases hnil : rest = []
    · subst hnil
      exact .inl (by rw [Location.IsOnWay, ← hrest, List.append_nil])
    · exact .inr ⟨rest, hnil, hrest.symm⟩

theorem Opens.confined (hway : way <+: Path.components base ++ below) (h : Opens [] way t t') :
    Confined base t t' where
  file_inside := fun _ _ hnew hold => absurd (h.file_iff.1 hnew) hold
  directory_inside := by
    intro l hnew hold
    rcases h l with hsame | ⟨-, -, k, hk, hpre⟩
    · exact absurd (hsame ▸ hnew) hold
    · obtain rfl : l = k := hk
      exact isOnWay_or_isInside (hpre.trans hway)
  keeps_file := fun _ content hold => ⟨content, h.file_iff.2 hold⟩
  keeps_directory := fun _ hold => h.directory hold

theorem confined_put {content : ByteArray} (hinside : (k ++ [n]).IsInside base)
    (haccepts : t.Accepts k n) : Confined base t (t.put k n (.file content)) where
  file_inside := by
    intro l content' hnew hold
    by_cases hl : l = k ++ [n]
    · exact hl ▸ hinside
    · exact absurd (get?_put_of_ne hl ▸ hnew) hold
  directory_inside := by
    intro l hnew hold
    by_cases hl : l = k ++ [n]
    · rw [hl, get?_put_self haccepts] at hnew
      simp at hnew
    · exact absurd (get?_put_of_ne hl ▸ hnew) hold
  keeps_file := by
    intro l content' hold
    by_cases hl : l = k ++ [n]
    · exact ⟨content, by rw [hl, get?_put_self haccepts]⟩
    · exact ⟨content', by rw [get?_put_of_ne hl, hold]⟩
  keeps_directory := fun _ hold => directory_put haccepts hold

end FileTree

namespace Bundle

variable {base : Bytes} {body : String} {e : Entry} {b : Bundle}

/-- Where the target of a safe entry ends is where its own path ends. -/
theorem getLast?_segments_place (base : Bytes) (e : Entry) :
    (Path.segments (place base e)).getLast? =
      (Path.segments (stripCurrent e.path)).getLast? := by
  obtain ⟨front, hjoin, -⟩ := Path.segments_join base (stripCurrent e.path)
  rw [place, hjoin, List.getLast?_append_of_ne_nil _ (Path.segments_ne_nil _)]

theorem up_not_mem_segments_place (hbase : Path.up ∉ Path.components base) (he : IsSafe e) :
    Path.up ∉ Path.segments (place base e) := by
  intro h
  have hc : Path.up ∈ Path.components (place base e) := Path.up_mem_components.2 h
  rw [components_place, Entry.way, List.mem_append] at hc
  exact hc.elim hbase fun h => (isSafe_iff.1 he).2.2 (Path.up_mem_components.1 h)

/-- **All that writing an entry can do**: directories on the way from the root, and then the file or
an error. -/
theorem writeTarget_place_cases (hbase : Path.up ∉ Path.components base) (he : IsSafe e)
    (body : String) (t : FileTree) :
    ∃ t₁, Opens [] (e.way base).dropLast t t₁ ∧
      ((∃ err, (writeTarget (place base e) body).on t = (.error err, t₁)) ∨
        ∃ k n, (k ++ [n]).map Name.bytes = e.way base ∧ n.bytes ∈ e.names ∧ t₁.Accepts k n ∧
          (writeTarget (place base e) body).on t =
            (.ok (), t₁.put k n (.file body.toByteArray))) := by
  have hroot : t.walk [] = .ok ⟨[], .directory⟩ := rfl
  obtain ⟨t₁, hopens, hresult⟩ := writeTarget_cases body hroot
    (List.nil_append _).symm (Path.segments_ne_nil (place base e))
    (up_not_mem_segments_place hbase he)
  rw [← Path.components_eq, components_place] at hopens hresult
  refine ⟨t₁, hopens, hresult.imp_right ?_⟩
  rintro ⟨k, n, hk, hlast, haccepts, hrun⟩
  -- The path of the entry ends in the name of the file, so it is more than `.` and slashes.
  rw [getLast?_segments_place] at hlast
  have hmem : n.bytes ∈ e.names :=
    List.mem_filter.2 ⟨List.mem_of_getLast? hlast, by simp [isIdle_bytes]⟩
  exact ⟨k, n, hk, hmem, haccepts, hrun⟩

/-- **One write is confined**, whether it succeeds or not. -/
theorem confined_writeTarget (hbase : Path.up ∉ Path.components base) (he : IsSafe e)
    (body : String) (t : FileTree) :
    Confined base t ((writeTarget (place base e) body).on t).2 := by
  obtain ⟨t₁, hopens, hresult⟩ := writeTarget_place_cases hbase he body t
  have hway : Confined base t t₁ := hopens.confined (List.dropLast_prefix _)
  rcases hresult with ⟨err, hrun⟩ | ⟨k, n, hk, hmem, haccepts, hrun⟩
  · rw [hrun]
    exact hway
  · rw [hrun]
    exact hway.trans (confined_put ⟨_, List.ne_nil_of_mem hmem, hk⟩ haccepts)

theorem confined_writeEntries (hbase : Path.up ∉ Path.components base) (h : ∀ e ∈ b, IsSafe e)
    (t : FileTree) : Confined base t ((writeEntries base b).on t).2 := by
  induction b generalizing t with
  | nil => exact .refl base t
  | cons e rest ih =>
    rw [List.forall_mem_cons] at h
    have hfirst := confined_writeTarget hbase h.1 e.body t
    rw [on_writeEntries_cons]
    rcases hrun : (writeTarget (place base e) e.body).on t with ⟨err | _, t₁⟩
    · rw [hrun] at hfirst
      exact hfirst
    · rw [hrun] at hfirst
      exact hfirst.trans (ih h.2 t₁)

/-- **Unpacking is confined to its prefix**, for every text, and whether it succeeds or fails. -/
theorem confined_unpackage (hbase : Path.up ∉ Path.components base) (text : String)
    (t : FileTree) : Confined base t ((unpackage text base).on t).2 := by
  rw [unpackage]
  by_cases h : ∀ e ∈ decode text, IsSafe e
  · rw [snd_on_writeTo_of_isSafe h]
    exact confined_writeEntries hbase h t
  · obtain ⟨e, he⟩ := on_writeTo_of_not_isSafe base t h
    rw [he]
    exact .refl base t

/-- A text whose second file lies below its first one, so that the work ends halfway. -/
theorem confined_unpackage_halfway :
    Path.up ∉ Path.components "out/./deep" ∧
      Confined "out/./deep" FileTree.empty
        ((unpackage "###./a//x##!1###a/./x/y##!2###b##!3" "out/./deep").on FileTree.empty).2 :=
  ⟨by decide, confined_unpackage (by decide) _ _⟩

end Bundle

end Atelier
