import Atelier.Text.Hidden
import Atelier.Text.Lossy

/-!
# Texts in quotes, for reading

The form in which an error shows the text it is about: in double quotes, with a backslash before
what would end the text or be misread, and code points in place of characters that do not show.
-/

namespace Atelier.Text

/-- A character by its code point. -/
def codePoint (c : Char) : List Char :=
  '\\' :: 'u' :: '\x7b' :: (Nat.toDigits 16 c.toNat ++ ['\x7d'])

def inspectChar (c : Char) : List Char :=
  match c with
  | '\x00' => ['\\', '0']
  | '\t' => ['\\', 't']
  | '\n' => ['\\', 'n']
  | '\r' => ['\\', 'r']
  | '"' => ['\\', '"']
  | '\\' => ['\\', '\\']
  | c =>
    if c.toNat < 0x20 ∨ c.toNat = 0x7f ∨ isHidden c then codePoint c else [c]

/-- A text in quotes with everything in it visible. -/
def inspect (s : String) : String :=
  .ofList ('"' :: (s.toList.flatMap inspectChar ++ ['"']))

/-- A byte that is no text, by its two digits. -/
def inspectByte (b : UInt8) : List Char :=
  ['\\', 'x', (Nat.digitChar (b.toNat / 16)).toUpper, (Nat.digitChar (b.toNat % 16)).toUpper]

def Glyph.inspect : Glyph → List Char
  | character c => inspectChar c
  | broken bytes => bytes.flatMap inspectByte

/-- Bytes in quotes, as text where they are text. -/
def inspectBytes (content : Bytes) : String :=
  .ofList ('"' :: ((read content).flatMap Glyph.inspect ++ ['"']))

end Atelier.Text
