import Atelier.Text.Lossy
import Mathlib.Data.List.Infix

/-!
# Bytes that are text

Reading takes bytes apart without losing any (`flatMap_read`). So what was read without a
replacement character gives the bytes back, and what is read of a text is the text (`lossy_bytes`).
A byte below 128 is a character by itself wherever it stands, and no other character has it. It ends
what is broken, so bytes can be read in two parts in front of it (`lossy_append_ascii`).
-/

namespace Atelier.Text

open String (utf8EncodeChar)

variable {content front back rest : Bytes} {s : String} {c : Char} {b : UInt8} {skip : Nat}

/-! ## The bytes of a text -/

theorem bytes_ofList (l : List Char) : bytes (.ofList l) = l.flatMap utf8EncodeChar := by
  rw [bytes, String.toByteArray_ofList, List.utf8Encode, List.data_toByteArray]

theorem bytes_eq (s : String) : bytes s = s.toList.flatMap utf8EncodeChar := by
  rw [← bytes_ofList, String.ofList_toList]

@[simp] theorem bytes_append (s more : String) : bytes (s ++ more) = bytes s ++ bytes more := by
  rw [bytes_eq, bytes_eq, bytes_eq, String.toList_append, List.flatMap_append]

theorem bytes_eq_nil_iff : bytes s = [] ↔ s = "" := by
  constructor
  · intro h
    exact bytes_injective h
  · rintro rfl
    rfl

/-- Only the character with a code below 128 has the byte with this code. -/
theorem utf8EncodeChar_of_mem (hb : b < 0x80) (h : b ∈ utf8EncodeChar c) :
    utf8EncodeChar c = [b] := by
  -- All bytes of a longer sequence are marked as such.
  have hmarked : ∀ n k : Nat, 128 ≤ k → n + k < 256 → b ≠ UInt8.ofNat (n + k) := by
    intro n k hk hn heq
    rw [heq, UInt8.lt_iff_toNat_lt, UInt8.toNat_ofNat_of_lt' hn] at hb
    exact absurd hb (by simpa using Nat.le_add_left_of_le hk)
  by_cases hsingle : c.val.toNat ≤ 0x7f
  · rw [utf8EncodeChar, if_pos hsingle] at h ⊢
    rw [List.mem_singleton.1 h]
  · rw [utf8EncodeChar, if_neg hsingle] at h
    split_ifs at h
    all_goals simp only [List.mem_cons, List.not_mem_nil, or_false] at h
    · obtain h | h := h
      all_goals exact absurd h (hmarked _ _ (by decide) (by omega))
    · obtain h | h | h := h
      all_goals exact absurd h (hmarked _ _ (by decide) (by omega))
    · obtain h | h | h | h := h
      all_goals exact absurd h (hmarked _ _ (by decide) (by omega))

/-! ## The first character -/

theorem first?_utf8EncodeChar_append (c : Char) (rest : Bytes) :
    first? (utf8EncodeChar c ++ rest) = some c := by
  have hsize : (utf8EncodeChar c).length ≤ 4 := by
    rw [String.length_utf8EncodeChar]
    exact c.utf8Size_le_four
  rw [first?, List.take_append, List.take_of_length_le hsize, List.toByteArray_append]
  exact ByteArray.utf8DecodeChar?_utf8EncodeChar_append

theorem exists_of_first? (h : first? content = some c) :
    ∃ rest, content = utf8EncodeChar c ++ rest := by
  obtain ⟨tail, htail⟩ := ByteArray.exists_of_utf8DecodeChar?_eq_some h
  have htake := congrArg (fun a => a.data.toList) htail
  simp only [List.data_toByteArray, ByteArray.data_append, Array.toList_append] at htake
  refine ⟨tail.data.toList ++ content.drop 4, ?_⟩
  rw [← List.append_assoc, ← htake, List.take_append_drop]

/-- A character is its first byte and as many bytes behind it as are left out after it was read. -/
theorem exists_utf8EncodeChar_eq_cons (c : Char) :
    ∃ b tail, utf8EncodeChar c = b :: tail ∧ c.utf8Size - 1 = tail.length := by
  obtain ⟨b, tail, hc⟩ := List.exists_cons_of_ne_nil (String.utf8EncodeChar_ne_nil (c := c))
  refine ⟨b, tail, hc, ?_⟩
  rw [← String.length_utf8EncodeChar, hc, List.length_cons, Nat.add_sub_cancel]

/-! ## Reading -/

theorem readAfter_length_append (front back : Bytes) :
    readAfter front.length (front ++ back) = read back := by
  induction front with
  | nil => rfl
  | cons b front ih =>
    rw [List.length_cons, List.cons_append, readAfter]
    exact ih

theorem read_utf8EncodeChar_append (c : Char) (rest : Bytes) :
    read (utf8EncodeChar c ++ rest) = .character c :: read rest := by
  obtain ⟨b, tail, hc, htail⟩ := exists_utf8EncodeChar_eq_cons c
  have hfirst := first?_utf8EncodeChar_append c rest
  rw [hc, List.cons_append] at hfirst ⊢
  rw [read, readAfter, hfirst]
  dsimp only
  rw [htail, readAfter_length_append]

/-- The bytes that something was read of. -/
def Glyph.bytes : Glyph → Bytes
  | character c => utf8EncodeChar c
  | broken bytes => bytes

theorem flatMap_readAfter (skip : Nat) (content : Bytes) :
    (readAfter skip content).flatMap Glyph.bytes = content.drop skip := by
  induction content generalizing skip with
  | nil => simp [readAfter]
  | cons b rest ih =>
    cases skip with
    | succ skip =>
      rw [readAfter, ih, List.drop_succ_cons]
    | zero =>
      rw [readAfter, List.drop_zero]
      cases hfirst : first? (b :: rest) with
      | none =>
        dsimp only
        rw [List.flatMap_cons, ih, Glyph.bytes, List.cons_append, List.take_append_drop]
      | some c =>
        obtain ⟨more, hmore⟩ := exists_of_first? hfirst
        obtain ⟨b', tail, hc, htail⟩ := exists_utf8EncodeChar_eq_cons c
        rw [hc, List.cons_append] at hmore
        obtain ⟨rfl, rfl⟩ := List.cons.inj hmore
        dsimp only
        rw [List.flatMap_cons, ih, htail, List.drop_left, Glyph.bytes, hc, List.cons_append]

/-- **Nothing is lost on reading.** -/
theorem flatMap_read (content : Bytes) : (read content).flatMap Glyph.bytes = content :=
  flatMap_readAfter 0 content

theorem toList_lossy (content : Bytes) : (lossy content).toList = (read content).map Glyph.char :=
  String.toList_ofList

theorem read_bytes_append (s : String) (rest : Bytes) :
    read (bytes s ++ rest) = s.toList.map .character ++ read rest := by
  rw [bytes_eq]
  induction s.toList with
  | nil => rfl
  | cons c l ih =>
    rw [List.flatMap_cons, List.append_assoc, read_utf8EncodeChar_append, ih, List.map_cons,
      List.cons_append]

/-- **A text is read as it is.** -/
@[simp] theorem lossy_bytes (s : String) : lossy (bytes s) = s := by
  have hread := read_bytes_append s []
  have hnil : read [] = [] := rfl
  rw [List.append_nil, hnil, List.append_nil] at hread
  have hchars : Glyph.char ∘ Glyph.character = id := rfl
  rw [lossy, hread, List.map_map, hchars, List.map_id, String.ofList_toList]

theorem lossy_eq_empty_iff : lossy content = "" ↔ content = [] := by
  constructor
  · intro h
    have hread : read content = [] := by
      rw [← List.map_eq_nil_iff, ← toList_lossy, h]
      rfl
    rw [← flatMap_read content, hread, List.flatMap_nil]
  · rintro rfl
    rfl

/-- Something other than a replacement character was read of its own bytes. -/
theorem Glyph.eq_character {g : Glyph} (h : g.char ≠ replacement) : g = .character g.char := by
  cases g with
  | character c => rfl
  | broken bytes => exact absurd rfl h

/-- **Bytes that are read without a replacement are the text that was read.** -/
theorem bytes_lossy (h : replacement ∉ (lossy content).toList) :
    bytes (lossy content) = content := by
  rw [toList_lossy, List.mem_map] at h
  have hglyph : ∀ g ∈ read content, utf8EncodeChar g.char = g.bytes := by
    intro g hg
    have hchar : g.char ≠ replacement := fun heq => h ⟨g, hg, heq⟩
    rw [Glyph.eq_character hchar]
    rfl
  rw [bytes_eq, toList_lossy, List.flatMap_map, List.flatMap_congr hglyph, flatMap_read]

/-- Bytes are a text if they are the bytes of one. -/
def IsText (content : Bytes) : Prop :=
  ∃ s, content = bytes s

theorem isText_iff : IsText content ↔ bytes (lossy content) = content := by
  constructor
  · rintro ⟨s, rfl⟩
    rw [lossy_bytes]
  · intro h
    exact ⟨_, h.symm⟩

/-! ## Bytes below 128 -/

/-- What is read as a character other than a replacement has the bytes of the character. -/
theorem infix_of_mem_lossy (h : c ∈ (lossy content).toList) (hc : c ≠ replacement) :
    utf8EncodeChar c <:+: content := by
  rw [toList_lossy, List.mem_map] at h
  obtain ⟨g, hg, rfl⟩ := h
  obtain ⟨front, back, hsplit⟩ := List.append_of_mem hg
  rw [← flatMap_read content, hsplit, List.flatMap_append, List.flatMap_cons,
    ← List.append_assoc]
  rw [Glyph.eq_character hc]
  exact ⟨_, _, rfl⟩

theorem readAfter_eq_read_drop (skip : Nat) (content : Bytes) :
    readAfter skip content = read (content.drop skip) := by
  induction skip generalizing content with
  | zero => rfl
  | succ skip ih =>
    cases content with
    | nil => rfl
    | cons b rest =>
      rw [readAfter, ih, List.drop_succ_cons]

theorem read_of_first?_eq_none (h : first? (b :: rest) = none) :
    read (b :: rest) = .broken (b :: rest.take (countFitting (boundsBehind b) rest)) ::
      read (rest.drop (countFitting (boundsBehind b) rest)) := by
  rw [read, readAfter, h]
  dsimp only
  rw [readAfter_eq_read_drop]

theorem countFitting_append {bounds : List (UInt8 × UInt8)} (hb : b < 0x80)
    (h : ∀ bound ∈ bounds, 0x80 ≤ bound.1) :
    countFitting bounds (front ++ b :: back) = countFitting bounds front := by
  induction bounds generalizing front with
  | nil => simp [countFitting]
  | cons bound bounds ih =>
    obtain ⟨hbound, hbounds⟩ := List.forall_mem_cons.1 h
    cases front with
    | nil =>
      have hout : ¬ (bound.1 ≤ b ∧ b ≤ bound.2) := by
        rintro ⟨hlow, -⟩
        exact absurd (UInt8.lt_of_lt_of_le hb (UInt8.le_trans hbound hlow)) (UInt8.lt_irrefl b)
      rw [List.nil_append, countFitting, if_neg hout]
      rfl
    | cons a front =>
      rw [List.cons_append, countFitting, countFitting, ih hbounds]

theorem countFitting_le (bounds : List (UInt8 × UInt8)) (content : Bytes) :
    countFitting bounds content ≤ content.length := by
  fun_induction countFitting bounds content with
  | case1 low high bounds b rest hfits ih => simpa using ih
  | case2 low high bounds b rest hfits => exact Nat.zero_le _
  | case3 => exact Nat.zero_le _

theorem le_boundsBehind (first : UInt8) : ∀ bound ∈ boundsBehind first, 0x80 ≤ bound.1 := by
  unfold boundsBehind
  split_ifs
  all_goals simp

/-- A character that bytes start with ends in front of a byte below 128. -/
theorem first?_append (hb : b < 0x80) (hfront : front ≠ []) :
    first? (front ++ b :: back) = first? front := by
  cases hfirst : first? front with
  | some c =>
    obtain ⟨more, rfl⟩ := exists_of_first? hfirst
    rw [List.append_assoc, first?_utf8EncodeChar_append]
  | none =>
    cases hlonger : first? (front ++ b :: back) with
    | none => rfl
    | some c =>
      obtain ⟨more, hmore⟩ := exists_of_first? hlonger
      rcases List.append_eq_append_iff.1 hmore with ⟨middle, hc, hmiddle⟩ | ⟨middle, rfl, -⟩
      · -- Then the byte would belong to the character, which would be this byte alone.
        cases middle with
        | nil =>
          rw [List.append_nil] at hc
          rw [← hc, ← List.append_nil (utf8EncodeChar c), first?_utf8EncodeChar_append] at hfirst
          cases hfirst
        | cons b' middle =>
          obtain ⟨rfl, -⟩ := List.cons.inj hmiddle
          have hsingle := utf8EncodeChar_of_mem hb (hc ▸ by simp : b ∈ utf8EncodeChar c)
          rw [hsingle] at hc
          have hlength := congrArg List.length hc
          have hpos := List.length_pos_iff.2 hfront
          simp only [List.length_append, List.length_cons, List.length_nil] at hlength
          omega
      · rw [first?_utf8EncodeChar_append] at hfirst
        cases hfirst

/-- **A byte below 128 ends what is broken**, and reading starts anew with it. -/
theorem read_append (hb : b < 0x80) (front back : Bytes) :
    read (front ++ b :: back) = read front ++ read (b :: back) := by
  induction hn : front.length using Nat.strongRecOn generalizing front with
  | ind n ih =>
    cases front with
    | nil => rfl
    | cons a tail =>
      have hlonger : first? (a :: tail ++ b :: back) = first? (a :: tail) :=
        first?_append hb (List.cons_ne_nil a tail)
      cases hfirst : first? (a :: tail) with
      | some c =>
        obtain ⟨more, hmore⟩ := exists_of_first? hfirst
        have hshorter : more.length < n := by
          have hpos := List.length_pos_iff.2 (String.utf8EncodeChar_ne_nil (c := c))
          rw [← hn, hmore, List.length_append]
          omega
        rw [hmore, List.append_assoc, read_utf8EncodeChar_append, read_utf8EncodeChar_append,
          ih _ hshorter more rfl]
        rfl
      | none =>
        rw [hfirst, List.cons_append] at hlonger
        have hcount := countFitting_le (boundsBehind a) tail
        have hshorter : (tail.drop (countFitting (boundsBehind a) tail)).length < n := by
          rw [← hn, List.length_drop, List.length_cons]
          omega
        rw [List.cons_append, read_of_first?_eq_none hlonger, read_of_first?_eq_none hfirst,
          countFitting_append hb (le_boundsBehind a), List.take_append_of_le_length hcount,
          List.drop_append_of_le_length hcount, ih _ hshorter _ rfl]
        rfl

/-- Bytes are read in front of an ASCII character and behind it. -/
theorem lossy_append_ascii (hc : utf8EncodeChar c = [b]) (hb : b < 0x80) (front back : Bytes) :
    (lossy (front ++ b :: back)).toList =
      (lossy front).toList ++ c :: (lossy back).toList := by
  have hback : read (b :: back) = .character c :: read back := by
    rw [← List.singleton_append, ← hc, read_utf8EncodeChar_append]
  rw [toList_lossy, toList_lossy, toList_lossy, read_append hb, hback, List.map_append,
    List.map_cons]
  rfl

end Atelier.Text
