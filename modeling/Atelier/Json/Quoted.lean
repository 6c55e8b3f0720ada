/-!
# JSON strings

A string in quotes. Only the quote, the backslash and the controls below U+0020 are escaped;
everything else stands for itself.
-/

namespace Atelier.Json

/-- The escape of a character, with a letter of its own or as four hexadecimal digits; none where
the character stands for itself. -/
def escape? (c : Char) : Option (List Char) :=
  match c with
  | '"' => some ['\\', '"']
  | '\\' => some ['\\', '\\']
  | '\x08' => some ['\\', 'b']
  | '\x0c' => some ['\\', 'f']
  | '\n' => some ['\\', 'n']
  | '\r' => some ['\\', 'r']
  | '\t' => some ['\\', 't']
  | c =>
    if c.toNat < 0x20 then
      some ['\\', 'u', '0', '0', Nat.digitChar (c.toNat / 16), Nat.digitChar (c.toNat % 16)]
    else none

def escaped (c : Char) : List Char :=
  (escape? c).getD [c]

def quoted (s : String) : List Char :=
  '"' :: (s.toList.flatMap escaped ++ ['"'])

end Atelier.Json
