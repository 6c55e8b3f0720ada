import Atelier.Text.Bytes

/-!
# Bytes as text

Bytes read as UTF-8 whatever they are. Where a sequence goes wrong, what there is of it becomes one
replacement character, and reading starts anew with the byte that did not fit.
-/

namespace Atelier.Text

/-- The character that stands for bytes that are no text. -/
def replacement : Char := '\uFFFD'

/-- What is read of bytes: a character, or the broken part of a sequence. -/
inductive Glyph where
  | character (c : Char)
  | broken (bytes : Bytes)

/-- The character that bytes start with, if they do. No character has more than four bytes. -/
def first? (content : Bytes) : Option Char :=
  (content.take 4).toByteArray.utf8DecodeChar? 0

/-- The bounds of the bytes that may come behind a first byte. Those of the second byte leave out
sequences that are too long, surrogates and what lies beyond the last code point. -/
def boundsBehind (first : UInt8) : List (UInt8 × UInt8) :=
  let next := (0x80, 0xbf)
  if 0xc2 ≤ first ∧ first ≤ 0xdf then [next]
  else if first = 0xe0 then [(0xa0, 0xbf), next]
  else if first = 0xed then [(0x80, 0x9f), next]
  else if 0xe1 ≤ first ∧ first ≤ 0xef then [next, next]
  else if first = 0xf0 then [(0x90, 0xbf), next, next]
  else if first = 0xf4 then [(0x80, 0x8f), next, next]
  else if 0xf1 ≤ first ∧ first ≤ 0xf3 then [next, next, next]
  else []

/-- How many bytes in a row are within their bounds. -/
def countFitting : List (UInt8 × UInt8) → Bytes → Nat
  | (low, high) :: bounds, b :: rest =>
    if low ≤ b ∧ b ≤ high then countFitting bounds rest + 1 else 0
  | _, _ => 0

/-- Reads bytes of which some still belong to what was read before. -/
def readAfter : Nat → Bytes → List Glyph
  | _, [] => []
  | skip + 1, _ :: rest => readAfter skip rest
  | 0, b :: rest =>
    match first? (b :: rest) with
    | some c => .character c :: readAfter (c.utf8Size - 1) rest
    | none =>
      let fitting := countFitting (boundsBehind b) rest
      .broken (b :: rest.take fitting) :: readAfter fitting rest

def read (content : Bytes) : List Glyph :=
  readAfter 0 content

def Glyph.char : Glyph → Char
  | character c => c
  | broken _ => replacement

/-- Bytes read as text, with replacement characters where they are none. -/
def lossy (content : Bytes) : String :=
  .ofList ((read content).map Glyph.char)

end Atelier.Text
