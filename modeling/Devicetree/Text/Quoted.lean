import Devicetree.Text.CodePoint
import Devicetree.Text.Hex
import Devicetree.Text.Utf8

/-!
# Quoted text

Bytes as a programmer wants to see them: text between double quotes, where a character that does
not show is written as its code point, and the list of byte values if the bytes are no text.
-/

namespace Devicetree

namespace Quoted

/-- The characters that a character is shown as between double quotes. -/
def char (c : Char) : List Char :=
  match c with
  | '\x00' => ['\\', '0']
  | '\t' => ['\\', 't']
  | '\n' => ['\\', 'n']
  | '\r' => ['\\', 'r']
  | '"' => ['\\', '"']
  | '\\' => ['\\', '\\']
  | c =>
    if CodePoint.shows c then [c]
    else '\\' :: 'u' :: '\x7b' :: (Hex.digits c.toNat ++ ['\x7d'])

def text (s : String) : String :=
  String.ofList ('"' :: (s.toList.flatMap char ++ ['"']))

def values (b : Bytes) : String :=
  "[" ++ ", ".intercalate (b.map fun c => toString c.toNat) ++ "]"

/-- Bytes quoted if they are text, and listed if not. -/
def bytes (b : Bytes) : String :=
  match Utf8.decode b with
  | .ok s => text s
  | .error _ => values b

end Quoted

end Devicetree
