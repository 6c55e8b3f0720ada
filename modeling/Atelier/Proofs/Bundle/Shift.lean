import Atelier.Proofs.Bundle.Carriable
import Mathlib.Data.List.DropRight

/-!
# Bodies that end in a hash

When nothing is wrong with the entries of a bundle but that some bodies end in `#`, the text of the
bundle is read as one entry for each of them again. Only the border has moved: the `#` at the end of
a body go in front of the next path. So the bodies together are shorter than they were.
-/

namespace Atelier.Bundle

open Text

variable {b rest : Bundle} {e : Entry} {carry : List Char}

/-- Whether a character is a `#`. -/
def isHash (c : Char) : Bool :=
  c = '#'

/-- A bundle with the `#` at the end of each body but the last moved in front of the next path, and
some in front of the first path. -/
def shift : List Char → Bundle → Bundle
  | _, [] => []
  | carry, [e] => [⟨.ofList (carry ++ e.path.toList), e.body⟩]
  | carry, e :: next :: rest =>
    ⟨.ofList (carry ++ e.path.toList), .ofList (e.body.toList.rdropWhile isHash)⟩ ::
      shift (e.body.toList.rtakeWhile isHash) (next :: rest)

theorem length_shift (carry : List Char) (b : Bundle) : (shift carry b).length = b.length := by
  induction b generalizing carry with
  | nil => rfl
  | cons e rest ih =>
    cases rest with
    | nil => rfl
    | cons next rest => simp [shift, ih]

theorem shift_ne_nil (carry : List Char) (hb : b ≠ []) : shift carry b ≠ [] := by
  rw [← List.length_pos_iff, length_shift]
  exact List.length_pos_iff.2 hb

/-! ## The text stays -/

/-- A run of `#` can be moved over a `###`. -/
theorem recordMarker_append_hashes (h : ∀ c ∈ carry, isHash c = true) (tail : List Char) :
    recordMarker.toList ++ (carry ++ tail) = carry ++ (recordMarker.toList ++ tail) := by
  induction carry with
  | nil => rfl
  | cons c carry ih =>
    rw [List.forall_mem_cons] at h
    obtain rfl : c = '#' := by simpa [isHash] using h.1
    have hmoved : recordMarker.toList ++ ('#' :: carry ++ tail) =
        '#' :: (recordMarker.toList ++ (carry ++ tail)) := rfl
    rw [hmoved, ih h.2, List.cons_append]

theorem toList_encode_cons (e : Entry) (rest : Bundle) :
    (encode (e :: rest)).toList = recordMarker.toList ++ (record e ++ (encode rest).toList) := by
  simp [encode, encodeEntry, record]

theorem toList_encode_shift (h : ∀ c ∈ carry, isHash c = true) (hb : b ≠ []) :
    (encode (shift carry b)).toList = carry ++ (encode b).toList := by
  induction b generalizing carry with
  | nil => exact absurd rfl hb
  | cons e rest ih =>
    cases rest with
    | nil =>
      rw [shift, toList_encode_cons, toList_encode_cons, ← recordMarker_append_hashes h]
      simp [record]
    | cons next rest =>
      have hback : ∀ c ∈ e.body.toList.rtakeWhile isHash, isHash c = true :=
        fun c hc => List.mem_rtakeWhile_imp hc
      have hbody : e.body.toList.rdropWhile isHash ++ (e.body.toList.rtakeWhile isHash ++
          (encode (next :: rest)).toList) = e.body.toList ++ (encode (next :: rest)).toList := by
        rw [← List.append_assoc, List.rdropWhile_append_rtakeWhile]
      rw [shift, toList_encode_cons, toList_encode_cons, ih hback (List.cons_ne_nil _ _),
        ← recordMarker_append_hashes h]
      simp [record, hbody]

/-! ## The shifted bundle can be carried -/

/-- Whether hashes in front of a path cannot make a marker with it. -/
def StartsPlain (path : String) : Prop :=
  ∃ rest, path.toList = '.' :: rest

theorem isClear_shifted {body : List Char} (he : IsClear e) (hplain : StartsPlain e.path)
    (hcarry : IsUnmarked (.ofList carry)) (hbody : body <+: e.body.toList) :
    IsClear ⟨.ofList (carry ++ e.path.toList), .ofList body⟩ := by
  obtain ⟨rest, hrest⟩ := hplain
  have hpath := he.path_unmarked
  have apart : '.' ∉ recordMarker.toList ∧ '.' ∉ bodyMarker.toList := by decide
  rw [IsUnmarked, hrest] at hpath
  rw [IsUnmarked, String.toList_ofList] at hcarry
  refine ⟨⟨?_, ?_⟩, ?_, ⟨?_, ?_⟩⟩
  · rw [String.toList_ofList, hrest, infix_append_cons_iff apart.1, not_or]
    exact ⟨hcarry.1, fun h => hpath.1 (List.infix_cons h)⟩
  · rw [String.toList_ofList, hrest, infix_append_cons_iff apart.2, not_or]
    exact ⟨hcarry.2, fun h => hpath.2 (List.infix_cons h)⟩
  · have hend := he.path_end
    rw [EndsInHash] at hend ⊢
    rwa [String.toList_ofList, List.getLast?_append_of_ne_nil _ (by simp [hrest])]
  · rw [String.toList_ofList]
    exact fun h => he.body_unmarked.1 (h.trans hbody.isInfix)
  · rw [String.toList_ofList]
    exact fun h => he.body_unmarked.2 (h.trans hbody.isInfix)

theorem not_endsInHash_rdropWhile (body : List Char) :
    ¬ EndsInHash (.ofList (body.rdropWhile isHash)) := by
  intro h
  rw [EndsInHash, String.toList_ofList] at h
  have hne : body.rdropWhile isHash ≠ [] := by
    intro hnil
    simp [hnil] at h
  rw [List.getLast?_eq_some_getLast hne, Option.some.injEq] at h
  have hlast := List.rdropWhile_last_not isHash body hne
  simp [h, isHash] at hlast

theorem carriable_shift (hclear : ∀ e ∈ b, IsClear e) (hplain : ∀ e ∈ b, StartsPlain e.path)
    (hcarry : IsUnmarked (.ofList carry)) : Carriable (shift carry b) := by
  induction b generalizing carry with
  | nil => exact carriable_nil
  | cons e rest ih =>
    rw [List.forall_mem_cons] at hclear hplain
    cases rest with
    | nil =>
      rw [shift, carriable_singleton]
      simpa using isClear_shifted hclear.1 hplain.1 hcarry (List.prefix_refl _)
    | cons next rest =>
      have hback : IsUnmarked (.ofList (e.body.toList.rtakeWhile isHash)) := by
        rw [IsUnmarked, String.toList_ofList]
        have hsuffix := (List.rtakeWhile_suffix isHash (l := e.body.toList)).isInfix
        exact ⟨fun h => hclear.1.body_unmarked.1 (h.trans hsuffix),
          fun h => hclear.1.body_unmarked.2 (h.trans hsuffix)⟩
      rw [shift, carriable_cons (shift_ne_nil _ (List.cons_ne_nil _ _))]
      exact ⟨isClear_shifted hclear.1 hplain.1 hcarry (List.rdropWhile_prefix isHash _),
        not_endsInHash_rdropWhile _, ih hclear.2 hplain.2 hback⟩

/-- **What is read when bodies end in `#`.** -/
theorem decode_encode_eq_shift (hclear : ∀ e ∈ b, IsClear e)
    (hplain : ∀ e ∈ b, StartsPlain e.path) : decode (encode b) = shift [] b := by
  by_cases hb : b = []
  · subst hb
    exact carriable_nil.decode_encode
  · -- Two bundles have this text, and the shifted one is what is read from it.
    have htext : encode (shift [] b) = encode b := by
      rw [← String.toList_inj, toList_encode_shift (by simp) hb, List.nil_append]
    rw [← htext]
    exact (carriable_shift hclear hplain (by decide)).decode_encode

/-! ## The bodies get shorter -/

/-- The number of characters in all bodies. -/
def bodyLength : Bundle → Nat
  | [] => 0
  | e :: rest => e.body.toList.length + bodyLength rest

theorem bodyLength_shift_le (carry : List Char) (b : Bundle) :
    bodyLength (shift carry b) ≤ bodyLength b := by
  induction b generalizing carry with
  | nil => exact Nat.le_refl _
  | cons e rest ih =>
    cases rest with
    | nil => exact Nat.le_refl _
    | cons next rest =>
      have hstem := (List.rdropWhile_prefix isHash e.body.toList).length_le
      have hrest := ih (e.body.toList.rtakeWhile isHash)
      rw [shift, bodyLength, bodyLength, String.toList_ofList]
      omega

/-- If no body got shorter then only the last one may end in `#`. -/
theorem body_end_of_bodyLength_eq (h : bodyLength (shift carry b) = bodyLength b) :
    ∀ e ∈ b.dropLast, ¬ EndsInHash e.body := by
  induction b generalizing carry with
  | nil => simp
  | cons e rest ih =>
    cases rest with
    | nil => simp
    | cons next rest =>
      have hpre := List.rdropWhile_prefix isHash e.body.toList
      have hstem := hpre.length_le
      have hrest := bodyLength_shift_le (e.body.toList.rtakeWhile isHash) (next :: rest)
      rw [shift, bodyLength, bodyLength, String.toList_ofList] at h
      rw [List.dropLast_cons_of_ne_nil (List.cons_ne_nil _ _), List.forall_mem_cons]
      refine ⟨?_, @ih (e.body.toList.rtakeWhile isHash) (by omega)⟩
      have hsame : e.body.toList.rdropWhile isHash = e.body.toList :=
        hpre.eq_of_length (by omega)
      have hend := not_endsInHash_rdropWhile e.body.toList
      rwa [hsame, String.ofList_toList] at hend

end Atelier.Bundle
