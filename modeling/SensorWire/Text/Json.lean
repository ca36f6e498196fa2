import SensorWire.Text.Quoted

/-!
# JSON strings

Strings of JSON text that are safe inside a web page: besides quotes, backslashes and controls, the characters `<`, `>`, `&` and the
line and paragraph separators are escaped. A stray byte becomes the replacement character.
-/

namespace SensorWire.Json

/-- A character by its number. -/
def escape (n : Nat) : List Char := '\\' :: 'u' :: hexDigits 4 n

/-- One character inside a string. -/
def char (c : Char) : List Char :=
  match c.toNat with
  | 0x22 => ['\\', '"']
  | 0x5c => ['\\', '\\']
  | 0x08 => ['\\', 'b']
  | 0x0c => ['\\', 'f']
  | 0x0a => ['\\', 'n']
  | 0x0d => ['\\', 'r']
  | 0x09 => ['\\', 't']
  | n => if n < 0x20 ∨ n = 0x3c ∨ n = 0x3e ∨ n = 0x26 ∨ n = 0x2028 ∨ n = 0x2029 then escape n else [c]

/-- One character or stray byte inside a string. -/
def rune : Rune → List Char
  | .char c => char c
  | .stray _ => escape 0xfffd

/-- A text as a string. -/
def string (t : Text) : Text := .ofChars ('"' :: t.runes.flatMap rune ++ ['"'])

end SensorWire.Json
