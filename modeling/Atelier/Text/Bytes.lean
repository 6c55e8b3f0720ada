/-!
# Bytes

Bytes in a row, the bytes of a text in UTF-8, and the order of texts by their bytes. Where bytes are
wanted a text stands for its own.
-/

namespace Atelier

abbrev Bytes := List UInt8

namespace Text

/-- The bytes of a text in UTF-8. -/
def bytes (s : String) : Bytes :=
  s.toByteArray.data.toList

/-- The order of texts by their bytes. -/
def byteOrder (a b : String) : Ordering :=
  compare (bytes a) (bytes b)

/-- A text is determined by its bytes. -/
theorem bytes_injective {a b : String} (h : bytes a = bytes b) : a = b := by
  have hd : a.toByteArray.data = b.toByteArray.data := Array.toList_inj.1 h
  exact String.toByteArray_inj.1 (ByteArray.ext hd)

instance : Std.TransCmp byteOrder :=
  inferInstanceAs (Std.TransCmp (compareOn bytes))

instance : Std.LawfulEqCmp byteOrder where
  compare_self := by
    intro a
    show compare (bytes a) (bytes a) = .eq
    exact Std.ReflCmp.compare_self
  eq_of_compare := by
    intro a b h
    have hbytes : compare (bytes a) (bytes b) = .eq := h
    exact bytes_injective (Std.LawfulEqCmp.eq_of_compare hbytes)

end Text

instance : Coe String Bytes := ⟨Text.bytes⟩

end Atelier
